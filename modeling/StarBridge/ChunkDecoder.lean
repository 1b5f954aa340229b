import StarBridge.Segmentation
import StarBridge.WhileLoops
import Mathlib.Logic.Relation

/-!
# The chunk loop and its buffer

`read_http_body` decodes chunks into a buffer that it doubles until a chunk fits.
The size on a chunk's line is added to what has been decoded before anything is
known of the bytes that follow, in words of 64 bits, and the doubling of a buffer
of 2⁶³ bytes gives none.

The loop is kept here with its buffer.  `Sound.ends_iff` says that it does what
`decodeChunks` does, and `decoding_safe_iff` when it comes to its end.
-/

namespace StarBridge

/-! ## A round of the loop -/

/-- What the loop makes of the bytes in front of it: the body ends there, or they
are refused, or the data of a chunk of some size follow. -/
inductive ChunkRead
  | ended
  | refused
  | chunk (size : Nat) (data : Bytes)
  deriving DecidableEq, Repr

/-- The size line in front of a chunk, behind the break of the chunk before it. -/
def readSizeLine (rest : Bytes) : ChunkRead :=
  let rest := rest.dropWhile isBreak
  if rest = [] then .ended
  else
    let line := rest.takeWhile fun c => ¬ isBreak c
    match rest.drop line.length with
    | 13 :: c :: more =>
        if chunkSize line < 0 then .refused
        else if chunkSize line = 0 then .ended
        else .chunk (chunkSize line).toNat (if c = 10 then more else c :: more)
    | _ => .refused

/-- What stands behind the data of a chunk and their break. -/
def behindChunk (size : Nat) (data : Bytes) : Bytes :=
  skipByte 10 (skipByte 13 (data.drop size))

/-- `while (next_cap < need) next_cap *= 2`, in words of 64 bits. -/
def Doubles (need cap next : Nat) : Prop :=
  WhileLoop.Leaves (fun c => c < need) (fun c => c * 2 % 2 ^ 64) cap next

/-- How the buffer grows for a chunk that ends at `need`. -/
def Grows (cap need cap' : Nat) : Prop :=
  if cap < need then ∃ next, Doubles need (cap * 2 % 2 ^ 64) next ∧ cap' = min next 16777216
  else cap' = cap

/-- The loop at the top of a round: the bytes from `p` on, `decoded`, and
`decoded_cap`. -/
structure DecodeState where
  rest : Bytes
  decoded : Bytes
  cap : Nat

namespace DecodeState

/-- In front of the first round. -/
def start (body : Bytes) : DecodeState := ⟨body, [], 65536⟩

/-- `decoded_len + chunk_size`, as a `size_t`. -/
def need (s : DecodeState) (size : Nat) : Nat := (s.decoded.length + size) % 2 ^ 64

variable (maxBody : Nat)

/-- A round that is followed by another. -/
inductive Continues : DecodeState → DecodeState → Prop
  | mk {s : DecodeState} {size : Nat} {data : Bytes} {cap : Nat}
      (hread : readSizeLine s.rest = .chunk size data) (hgrows : Grows s.cap (s.need size) cap)
      (hroom : (s.decoded ++ data.take size).length ≤ maxBody) :
      Continues s ⟨behindChunk size data, s.decoded ++ data.take size, cap⟩

/-- The loop ends, with what `read_http_body` returns. -/
inductive Ends : DecodeState → BodyRead → Prop
  | ended {s : DecodeState} (hread : readSizeLine s.rest = .ended) :
      Ends s (.body s.decoded s.decoded.length)
  | refused {s : DecodeState} (hread : readSizeLine s.rest = .refused) : Ends s .rejected
  | tooLarge {s : DecodeState} {size : Nat} {data : Bytes} {cap : Nat}
      (hread : readSizeLine s.rest = .chunk size data) (hgrows : Grows s.cap (s.need size) cap)
      (hlarge : maxBody < (s.decoded ++ data.take size).length) : Ends s .tooLarge
  | next {s s' : DecodeState} {r : BodyRead} (hround : Continues maxBody s s')
      (hends : Ends s' r) : Ends s r

/-- The states at the tops of the rounds. -/
def Reached (body : Bytes) : DecodeState → Prop :=
  Relation.ReflTransGen (Continues maxBody) (start body)

/-- `memcpy` of so many bytes to an offset in a buffer of `cap` bytes. -/
structure Copy where
  offset : Nat
  length : Nat
  cap : Nat

/-- What a round copies. -/
inductive Copies : DecodeState → Copy → Prop
  | mk {s : DecodeState} {size : Nat} {data : Bytes} {cap : Nat}
      (hread : readSizeLine s.rest = .chunk size data) (hgrows : Grows s.cap (s.need size) cap) :
      Copies s ⟨s.decoded.length, (data.take size).length, cap⟩

/-- The loop comes to its end, so does the doubling in every round, and every copy
stays inside the buffer. -/
structure Safe (body : Bytes) : Prop where
  ends : ∃ r, Ends maxBody (start body) r
  doubles : ∀ s size data, Reached maxBody body s → readSizeLine s.rest = .chunk size data →
    s.cap < s.need size → ∃ next, Doubles (s.need size) (s.cap * 2 % 2 ^ 64) next
  inside : ∀ s c, Reached maxBody body s → Copies s c → c.offset + c.length ≤ c.cap

end DecodeState

/-! ## Size lines -/

theorem chunkSize_le (line : Bytes) : chunkSize line ≤ longMax := by
  unfold chunkSize strtolHex
  dsimp only
  split_ifs <;> omega

theorem length_behindChunk_le (size : Nat) (data : Bytes) :
    (behindChunk size data).length ≤ (data.drop size).length := by
  have hskip : ∀ c (s : Bytes), (skipByte c s).length ≤ s.length := by
    intro c s
    unfold skipByte
    split_ifs
    · rw [List.length_drop]
      omega
    · exact Nat.le_refl _
  exact Nat.le_trans (hskip 10 _) (hskip 13 _)

/-- What a size line is followed by. -/
theorem readSizeLine_chunk {rest data : Bytes} {size : Nat}
    (h : readSizeLine rest = .chunk size data) :
    0 < size ∧ size ≤ longMax ∧ data.length < rest.length := by
  unfold readSizeLine at h
  dsimp only at h
  have hdrop : (rest.dropWhile isBreak).length ≤ rest.length :=
    (List.dropWhile_sublist _).length_le
  generalize rest.dropWhile isBreak = front at h hdrop
  by_cases hnil : front = []
  · rw [if_pos hnil] at h
    cases h
  rw [if_neg hnil] at h
  generalize hline : front.takeWhile (fun c => ¬ isBreak c) = line at h
  have hle := chunkSize_le line
  cases hbehind : front.drop line.length with
  | nil =>
      rw [hbehind] at h
      cases h
  | cons b more =>
      have hlength := congrArg List.length hbehind
      rw [List.length_drop, List.length_cons] at hlength
      rw [hbehind] at h
      split at h
      · rename_i c more' heq
        cases heq
        rw [List.length_cons] at hlength
        split_ifs at h with hneg hzero hfeed
        · cases h
          omega
        · cases h
          rw [List.length_cons]
          omega
      · cases h

/-! ## Doubling -/

theorem doubles_of_le {need cap : Nat} (h : need ≤ cap) : Doubles need cap cap := by
  unfold Doubles
  rw [WhileLoop.leaves_iff_of_not_guard]
  exact Nat.not_lt.mpr h

theorem doubles_of_lt {need cap next : Nat} (h : cap < need)
    (hnext : Doubles need (cap * 2 % 2 ^ 64) next) : Doubles need cap next := by
  unfold Doubles
  rw [WhileLoop.leaves_body_iff]
  · exact hnext
  · exact h

theorem doubled_word {j : Nat} (hj : j < 63) : 2 ^ j * 2 % 2 ^ 64 = 2 ^ (j + 1) := by
  have hpow : 2 ^ (j + 1) < 2 ^ 64 := Nat.pow_lt_pow_right (by decide) (by omega)
  rw [← Nat.pow_succ, Nat.mod_eq_of_lt hpow]

/-- From a power of two the doubling reaches what is needed, if that is a power of two
at most. -/
theorem exists_doubled {need : Nat} (hneed : need ≤ 2 ^ 63) (k j : Nat) (hj : j + k = 63) :
    ∃ next, Doubles need (2 ^ j) next := by
  induction k generalizing j with
  | zero =>
      obtain rfl : j = 63 := hj
      exact ⟨_, doubles_of_le hneed⟩
  | succ k ih =>
      by_cases hguard : 2 ^ j < need
      · obtain ⟨next, hnext⟩ := ih (j + 1) (by omega)
        rw [← doubled_word (by omega)] at hnext
        exact ⟨next, doubles_of_lt hguard hnext⟩
      · exact ⟨_, doubles_of_le (Nat.not_lt.mp hguard)⟩

/-- A word that has been doubled: a power of two, or nothing is left of it. -/
def IsDoubled (c : Nat) : Prop := c = 0 ∨ ∃ i, i ≤ 63 ∧ c = 2 ^ i

theorem IsDoubled.step {c : Nat} (h : IsDoubled c) : IsDoubled (c * 2 % 2 ^ 64) := by
  rcases h with rfl | ⟨i, hi, rfl⟩
  · exact Or.inl rfl
  · rcases Nat.lt_or_ge i 63 with hlt | hge
    · exact Or.inr ⟨i + 1, hlt, doubled_word hlt⟩
    · obtain rfl : i = 63 := by omega
      exact Or.inl (by decide)

/-- Where the doubling ends, there is a power of two with room for what is needed. -/
theorem Doubles.spec {need j next : Nat} (h : Doubles need (2 ^ j) next) (hj : j ≤ 63)
    (hpos : 0 < need) : ∃ i, i ≤ 63 ∧ next = 2 ^ i ∧ need ≤ next := by
  have hleft : IsDoubled next ∧ ¬ next < need :=
    WhileLoop.Leaves.invariant h (Or.inr ⟨j, hj, rfl⟩) fun c _ hc => hc.step
  obtain ⟨hword, hroom⟩ := hleft
  rcases hword with rfl | ⟨i, hi, hnext⟩
  · exact absurd hpos hroom
  · exact ⟨i, hi, hnext, Nat.not_lt.mp hroom⟩

/-- **The doubling ends** iff there is a power of two of 64 bits with room for what is
needed. -/
theorem doubles_iff {need j : Nat} (hj : j ≤ 63) (hpos : 0 < need) :
    (∃ next, Doubles need (2 ^ j) next) ↔ need ≤ 2 ^ 63 := by
  constructor
  · intro h
    obtain ⟨next, hnext⟩ := h
    obtain ⟨i, hi, hpow, hle⟩ := hnext.spec hj hpos
    calc need ≤ 2 ^ i := hpow ▸ hle
      _ ≤ 2 ^ 63 := Nat.pow_le_pow_right (by decide) hi
  · intro h
    exact exists_doubled h (63 - j) j (by omega)

/-- A size of the buffer: a power of two from 65536 to 16777216. -/
def IsCap (cap : Nat) : Prop := ∃ k, 16 ≤ k ∧ k ≤ 24 ∧ cap = 2 ^ k

theorem IsCap.doubled {cap : Nat} (h : IsCap cap) :
    ∃ j, 17 ≤ j ∧ j ≤ 25 ∧ cap * 2 % 2 ^ 64 = 2 ^ j := by
  obtain ⟨k, hlow, hhigh, rfl⟩ := h
  exact ⟨k + 1, by omega, by omega, doubled_word (by omega)⟩

theorem IsCap.lt {cap : Nat} (h : IsCap cap) : cap < 2 ^ 63 := by
  obtain ⟨k, -, hhigh, rfl⟩ := h
  exact Nat.pow_lt_pow_right (by decide) (by omega)

theorem grows_of_lt {cap need cap' : Nat} (h : cap < need) :
    Grows cap need cap' ↔
      ∃ next, Doubles need (cap * 2 % 2 ^ 64) next ∧ cap' = min next 16777216 := by
  rw [Grows, if_pos h]

theorem grows_of_le {cap need cap' : Nat} (h : need ≤ cap) : Grows cap need cap' ↔ cap' = cap := by
  rw [Grows, if_neg (Nat.not_lt.mpr h)]

/-- A buffer that has grown has a size again, and room for what is needed or 16777216
bytes. -/
theorem Grows.spec {cap need cap' : Nat} (h : Grows cap need cap') (hcap : IsCap cap) :
    IsCap cap' ∧ min need 16777216 ≤ cap' := by
  rcases Nat.lt_or_ge cap need with hgrow | hroom
  · obtain ⟨next, hdoubles, rfl⟩ := (grows_of_lt hgrow).mp h
    obtain ⟨j, hlow, hhigh, hj⟩ := hcap.doubled
    rw [hj] at hdoubles
    obtain ⟨i, hi, rfl, hle⟩ := hdoubles.spec (by omega) (by omega)
    obtain ⟨k, hk, hk', rfl⟩ := hcap
    have hki : k < i := (Nat.pow_lt_pow_iff_right (by decide)).mp (Nat.lt_of_lt_of_le hgrow hle)
    refine ⟨?_, by omega⟩
    rcases Nat.le_total i 24 with hi24 | hi24
    · have hpow : 2 ^ i ≤ 2 ^ 24 := Nat.pow_le_pow_right (by decide) hi24
      exact ⟨i, by omega, hi24, Nat.min_eq_left hpow⟩
    · have hpow : 2 ^ 24 ≤ 2 ^ i := Nat.pow_le_pow_right (by decide) hi24
      exact ⟨24, by decide, by decide, Nat.min_eq_right hpow⟩
  · rw [(grows_of_le hroom).mp h]
    exact ⟨hcap, by omega⟩

/-- **The buffer can grow** iff a power of two of 64 bits has room for what is needed. -/
theorem grows_iff {cap need : Nat} (hcap : IsCap cap) :
    (∃ cap', Grows cap need cap') ↔ need ≤ 2 ^ 63 := by
  have hlt := hcap.lt
  rcases Nat.lt_or_ge cap need with hgrow | hroom
  · obtain ⟨j, hlow, hhigh, hj⟩ := hcap.doubled
    have hiff := doubles_iff (by omega : j ≤ 63) (by omega : 0 < need)
    rw [← hj] at hiff
    rw [← hiff]
    constructor
    · intro h
      obtain ⟨cap', hgrows⟩ := h
      obtain ⟨next, hdoubles, -⟩ := (grows_of_lt hgrow).mp hgrows
      exact ⟨next, hdoubles⟩
    · intro h
      obtain ⟨next, hdoubles⟩ := h
      exact ⟨_, (grows_of_lt hgrow).mpr ⟨next, hdoubles, rfl⟩⟩
  · exact iff_of_true ⟨cap, (grows_of_le hroom).mpr rfl⟩ (by omega)

/-! ## The rounds -/

namespace DecodeState

/-- The decoder at the top of a round: what it has decoded and what is left come from a
buffer of 16777216 bytes at most. -/
structure Sound (s : DecodeState) : Prop where
  cap : IsCap s.cap
  total : s.decoded.length + s.rest.length ≤ 16777216

theorem sound_start {body : Bytes} (h : body.length ≤ 16777216) : (start body).Sound :=
  ⟨⟨16, by decide, by decide, rfl⟩, by simpa [start] using h⟩

variable {maxBody : Nat} {s s' : DecodeState} {size : Nat} {data : Bytes}

/-- What a chunk needs is no more than a word can hold. -/
theorem Sound.need_eq (h : s.Sound) (hread : readSizeLine s.rest = .chunk size data) :
    s.need size = s.decoded.length + size := by
  obtain ⟨-, hsize, -⟩ := readSizeLine_chunk hread
  have hmax : longMax = 2 ^ 63 - 1 := rfl
  have htotal := h.total
  exact Nat.mod_eq_of_lt (by omega)

theorem length_afterCopy (s : DecodeState) (size : Nat) (data : Bytes) :
    (s.decoded ++ data.take size).length + (behindChunk size data).length ≤
      s.decoded.length + data.length := by
  have hbehind := length_behindChunk_le size data
  rw [List.length_drop] at hbehind
  rw [List.length_append, List.length_take]
  omega

/-- **A round keeps the decoder sound**, and there is less left behind it. -/
theorem Sound.continues (h : s.Sound) (hround : Continues maxBody s s') :
    s'.Sound ∧ s'.rest.length < s.rest.length := by
  cases hround with
  | @mk size data cap hread hgrows hroom =>
      obtain ⟨-, -, hshorter⟩ := readSizeLine_chunk hread
      have hafter := length_afterCopy s size data
      have hbehind := length_behindChunk_le size data
      rw [List.length_drop] at hbehind
      have htotal := h.total
      exact ⟨⟨(hgrows.spec h.cap).1, by simpa using (by omega)⟩, by simpa using (by omega)⟩

theorem Sound.reached {body : Bytes} (hbody : body.length ≤ 16777216)
    (h : Reached maxBody body s) : s.Sound := by
  induction h with
  | refl => exact sound_start hbody
  | tail _ hround ih => exact (ih.continues hround).1

/-- **A copy stays inside the buffer.** -/
theorem Sound.inside (h : s.Sound) {c : Copy} (hcopies : Copies s c) :
    c.offset + c.length ≤ c.cap := by
  cases hcopies with
  | @mk size data cap hread hgrows =>
      obtain ⟨-, hroom⟩ := hgrows.spec h.cap
      obtain ⟨-, -, hshorter⟩ := readSizeLine_chunk hread
      rw [h.need_eq hread] at hroom
      have htotal := h.total
      show s.decoded.length + (data.take size).length ≤ cap
      rw [List.length_take]
      omega

end DecodeState

/-! ## The loop and `decodeChunks` -/

/-- A round of `decodeChunks`. -/
theorem decodeChunks_succ (maxBody fuel : Nat) (rest decoded : Bytes) :
    decodeChunks maxBody (fuel + 1) rest decoded =
      match readSizeLine rest with
      | .ended => .body decoded decoded.length
      | .refused => .rejected
      | .chunk size data =>
          if longMax + 1 < decoded.length + size then .hangs
          else if maxBody < (decoded ++ data.take size).length then .tooLarge
          else decodeChunks maxBody fuel (behindChunk size data) (decoded ++ data.take size) := by
  rw [decodeChunks, readSizeLine]
  dsimp only
  generalize rest.dropWhile isBreak = front
  by_cases hnil : front = []
  · rw [if_pos hnil, if_pos hnil]
  rw [if_neg hnil, if_neg hnil]
  generalize front.takeWhile (fun c => ¬ isBreak c) = line
  generalize front.drop line.length = behind
  by_cases hends : ∃ c more, behind = 13 :: c :: more
  · obtain ⟨c, more, rfl⟩ := hends
    by_cases hneg : chunkSize line < 0
    · simp only [if_pos hneg]
    · simp only [if_neg hneg]
      by_cases hzero : chunkSize line = 0
      · simp only [if_pos hzero]
      · simp only [if_neg hzero]
        rfl
  · grind

namespace DecodeState

variable {maxBody : Nat} {s : DecodeState} {r : BodyRead} {size : Nat} {data : Bytes}

theorem ends_ended_iff (hread : readSizeLine s.rest = .ended) :
    Ends maxBody s r ↔ r = .body s.decoded s.decoded.length := by
  constructor
  · intro h
    cases h with
    | ended => rfl
    | refused hread' => cases hread.symm.trans hread'
    | tooLarge hread' => cases hread.symm.trans hread'
    | next hround =>
        cases hround with
        | mk hread' => cases hread.symm.trans hread'
  · intro hr
    rw [hr]
    exact .ended hread

theorem ends_refused_iff (hread : readSizeLine s.rest = .refused) :
    Ends maxBody s r ↔ r = .rejected := by
  constructor
  · intro h
    cases h with
    | ended hread' => cases hread.symm.trans hread'
    | refused => rfl
    | tooLarge hread' => cases hread.symm.trans hread'
    | next hround =>
        cases hround with
        | mk hread' => cases hread.symm.trans hread'
  · intro hr
    rw [hr]
    exact .refused hread

/-- A round that copies. -/
theorem ends_chunk_iff (hread : readSizeLine s.rest = .chunk size data) :
    Ends maxBody s r ↔ ∃ cap, Grows s.cap (s.need size) cap ∧
      if maxBody < (s.decoded ++ data.take size).length then r = .tooLarge
      else Ends maxBody ⟨behindChunk size data, s.decoded ++ data.take size, cap⟩ r := by
  constructor
  · intro h
    cases h with
    | ended hread' => cases hread.symm.trans hread'
    | refused hread' => cases hread.symm.trans hread'
    | tooLarge hread' hgrows hlarge =>
        cases hread.symm.trans hread'
        exact ⟨_, hgrows, by rw [if_pos hlarge]⟩
    | next hround hends =>
        cases hround with
        | mk hread' hgrows hroom =>
            cases hread.symm.trans hread'
            exact ⟨_, hgrows, by rwa [if_neg (Nat.not_lt.mpr hroom)]⟩
  · intro h
    obtain ⟨cap, hgrows, hends⟩ := h
    by_cases hlarge : maxBody < (s.decoded ++ data.take size).length
    · rw [if_pos hlarge] at hends
      rw [hends]
      exact .tooLarge hread hgrows hlarge
    · rw [if_neg hlarge] at hends
      exact .next (.mk hread hgrows (Nat.not_lt.mp hlarge)) hends

/-- **The loop does what `decodeChunks` does**, and it does not end where that hangs. -/
theorem Sound.ends_iff (h : s.Sound) {fuel : Nat} (hfuel : s.rest.length < fuel) :
    Ends maxBody s r ↔ decodeChunks maxBody fuel s.rest s.decoded = r ∧ r ≠ .hangs := by
  induction fuel generalizing s with
  | zero => omega
  | succ fuel ih =>
      rw [decodeChunks_succ]
      cases hread : readSizeLine s.rest with
      | ended =>
          rw [ends_ended_iff hread]
          constructor
          · intro hr
            rw [hr]
            exact ⟨rfl, fun hhangs => by cases hhangs⟩
          · intro hr
            exact hr.1.symm
      | refused =>
          rw [ends_refused_iff hread]
          constructor
          · intro hr
            rw [hr]
            exact ⟨rfl, fun hhangs => by cases hhangs⟩
          · intro hr
            exact hr.1.symm
      | chunk size data =>
          have hgrow : (∃ cap', Grows s.cap (s.need size) cap') ↔ s.need size ≤ 2 ^ 63 := grows_iff h.cap
          have hmax : longMax + 1 = 2 ^ 63 := rfl
          rw [h.need_eq hread] at hgrow
          rw [ends_chunk_iff hread, h.need_eq hread]
          dsimp only
          by_cases hhuge : longMax + 1 < s.decoded.length + size
          · rw [if_pos hhuge]
            refine iff_of_false ?_ ?_
            · intro hends
              obtain ⟨cap, hgrows, -⟩ := hends
              exact absurd (hgrow.mp ⟨cap, hgrows⟩) (by omega)
            · intro hr
              exact hr.2 hr.1.symm
          · rw [if_neg hhuge]
            obtain ⟨cap, hgrows⟩ := hgrow.mpr (by omega)
            by_cases hlarge : maxBody < (s.decoded ++ data.take size).length
            · simp only [if_pos hlarge]
              constructor
              · intro hends
                obtain ⟨-, -, rfl⟩ := hends
                exact ⟨rfl, by decide⟩
              · intro hr
                exact ⟨cap, hgrows, hr.1.symm⟩
            · simp only [if_neg hlarge]
              have hnext : ∀ cap, Grows s.cap (s.decoded.length + size) cap →
                  (Ends maxBody ⟨behindChunk size data, s.decoded ++ data.take size, cap⟩ r ↔
                    decodeChunks maxBody fuel (behindChunk size data) (s.decoded ++ data.take size) = r ∧
                      r ≠ .hangs) := by
                intro cap hgrows
                rw [← h.need_eq hread] at hgrows
                obtain ⟨hsound, hshorter⟩ := h.continues
                  (.mk hread hgrows (Nat.not_lt.mp hlarge) : Continues maxBody s _)
                exact ih hsound (by omega)
              constructor
              · intro hends
                obtain ⟨cap, hgrows, hends⟩ := hends
                exact (hnext cap hgrows).mp hends
              · intro hr
                exact ⟨cap, hgrows, (hnext cap hgrows).mpr hr⟩

end DecodeState

/-! ## Which sizes end the loop -/

/-- The first chunks of a body, as the loop takes them: `n` bytes of data, with `rest`
behind them. -/
inductive Framed (maxBody : Nat) (body : Bytes) : Nat → Bytes → Prop
  | start : Framed maxBody body 0 body
  | chunk {n size : Nat} {rest data : Bytes} (hfront : Framed maxBody body n rest)
      (hread : readSizeLine rest = .chunk size data) (hroom : n + (data.take size).length ≤ maxBody) :
      Framed maxBody body (n + (data.take size).length) (behindChunk size data)

/-- Behind the chunks of a body no size is so large that the two together are beyond the
largest power of two of 64 bits. -/
def SizesFit (maxBody : Nat) (body : Bytes) : Prop :=
  ∀ n rest size data, Framed maxBody body n rest → readSizeLine rest = .chunk size data →
    n + size ≤ 2 ^ 63

namespace DecodeState

variable {maxBody : Nat} {s : DecodeState} {body : Bytes}

theorem Reached.framed (h : Reached maxBody body s) :
    Framed maxBody body s.decoded.length s.rest := by
  induction h with
  | refl => exact .start
  | tail _ hround ih =>
      cases hround with
      | mk hread hgrows hroom =>
          rw [List.length_append] at hroom
          have hnext := ih.chunk hread hroom
          rwa [← List.length_append] at hnext

/-- While the buffer can grow, the loop gets behind the chunks. -/
theorem reached_of_framed
    (hgrows : ∀ s size data, Reached maxBody body s → readSizeLine s.rest = .chunk size data →
      ∃ cap, Grows s.cap (s.need size) cap) {n : Nat} {rest : Bytes}
    (h : Framed maxBody body n rest) :
    ∃ s, Reached maxBody body s ∧ s.decoded.length = n ∧ s.rest = rest := by
  induction h with
  | start => exact ⟨start body, .refl, rfl, rfl⟩
  | @chunk n size rest data _ hread hroom ih =>
      obtain ⟨s, hreached, rfl, rfl⟩ := ih
      obtain ⟨cap, hcap⟩ := hgrows s size data hreached hread
      have hlength : (s.decoded ++ data.take size).length ≤ maxBody := by
        rw [List.length_append]
        exact hroom
      exact ⟨_, hreached.tail (.mk hread hcap hlength), List.length_append, rfl⟩

/-- **The rounds come to an end**: each leaves less to read. -/
theorem exists_ends (hbody : body.length ≤ 16777216) (hfit : SizesFit maxBody body)
    (h : Reached maxBody body s) : ∃ r, Ends maxBody s r := by
  induction hlen : s.rest.length using Nat.strongRecOn generalizing s with
  | ind n ih =>
      have hsound := Sound.reached hbody h
      cases hread : readSizeLine s.rest with
      | ended => exact ⟨_, .ended hread⟩
      | refused => exact ⟨_, .refused hread⟩
      | chunk size data =>
          have hneed : s.need size ≤ 2 ^ 63 := by
            rw [hsound.need_eq hread]
            exact hfit _ _ size data h.framed hread
          obtain ⟨cap, hgrows⟩ := (grows_iff hsound.cap).mpr hneed
          by_cases hlarge : maxBody < (s.decoded ++ data.take size).length
          · exact ⟨_, .tooLarge hread hgrows hlarge⟩
          · have hround := Continues.mk hread hgrows (Nat.not_lt.mp hlarge)
            obtain ⟨-, hshorter⟩ := hsound.continues hround
            obtain ⟨r, hends⟩ := ih _ (hlen ▸ hshorter) (h.tail hround) rfl
            exact ⟨r, .next hround hends⟩

/-- **The loop is safe** iff all sizes fit. -/
theorem safe_iff (hbody : body.length ≤ 16777216) :
    Safe maxBody body ↔ SizesFit maxBody body := by
  constructor
  · intro h n rest size data hframed hread
    have hgrows : ∀ s size data, Reached maxBody body s →
        readSizeLine s.rest = .chunk size data → ∃ cap, Grows s.cap (s.need size) cap := by
      intro s size data hreached hread
      rcases Nat.lt_or_ge s.cap (s.need size) with hgrow | hroom
      · obtain ⟨next, hdoubles⟩ := h.doubles s size data hreached hread hgrow
        exact ⟨_, (grows_of_lt hgrow).mpr ⟨next, hdoubles, rfl⟩⟩
      · exact ⟨_, (grows_of_le hroom).mpr rfl⟩
    obtain ⟨s, hreached, rfl, rfl⟩ := reached_of_framed hgrows hframed
    have hsound := Sound.reached hbody hreached
    rw [← hsound.need_eq hread, ← grows_iff hsound.cap]
    exact hgrows s size data hreached hread
  · intro hfit
    refine ⟨exists_ends hbody hfit .refl, ?_, ?_⟩
    · intro s size data hreached hread hgrow
      have hsound := Sound.reached hbody hreached
      have hneed : s.need size ≤ 2 ^ 63 := by
        rw [hsound.need_eq hread]
        exact hfit _ _ size data hreached.framed hread
      obtain ⟨cap, hgrows⟩ := (grows_iff hsound.cap).mpr hneed
      obtain ⟨next, hdoubles, -⟩ := (grows_of_lt hgrow).mp hgrows
      exact ⟨next, hdoubles⟩
    · intro s c hreached hcopies
      exact (Sound.reached hbody hreached).inside hcopies

end DecodeState

/-! ## The bodies the loop is started on -/

/-- The bytes behind the header block of a chunked request, on which the loop is
started. -/
def chunkedBody (raw : Bytes) : Option Bytes :=
  if isChunkedRequest raw then (headerLen raw).map fun n => raw.drop n else none

/-- No buffer of `read_http_request` is longer than its limit. -/
theorem length_readHttpRequest_le {maxReq : Nat} {s : ClientStream} {raw : Bytes}
    (h : readHttpRequest maxReq s = .request raw) : raw.length ≤ requestCapLimit := by
  have htake : ∀ n, n ≤ requestCapLimit → (s.bytes.take n).length ≤ requestCapLimit := by
    intro n hn
    rw [List.length_take]
    omega
  have hrule : LoopRule maxReq s (fun cap len => len ≤ requestCapLimit ∧ cap ≤ requestCapLimit)
      (fun r => ∀ raw, r = .request raw → raw.length ≤ requestCapLimit) := by
    constructor
    · intro cap len hinv _ _ raw hraw
      cases hraw
      exact htake len hinv.1
    · intro cap len hinv _ _ raw hraw
      cases hending : s.ending with
      | closed =>
          rw [hending] at hraw
          cases hraw
          exact htake len hinv.1
      | failed =>
          rw [hending] at hraw
          cases hraw
      | silent =>
          rw [hending] at hraw
          cases hraw
    · intro cap len _ n _ _ _ _ raw hraw
      cases hraw
    · intro cap len hinv n _ hcap _ _ _ raw hraw
      cases hraw
      exact htake n (Nat.le_trans hcap hinv.2)
    · intro cap len hinv n _ hcap _ _ _
      refine ⟨Nat.le_trans hcap hinv.2, ?_⟩
      unfold grownCap
      split
      · omega
      · exact hinv.2
  exact hrule.readHttpRequest ⟨Nat.zero_le _, by decide⟩ raw h

theorem length_chunkedBody_le {maxReq : Nat} {s : ClientStream} {raw body : Bytes}
    (h : readHttpRequest maxReq s = .request raw) (hbody : chunkedBody raw = some body) :
    body.length ≤ 16777216 := by
  have hraw := length_readHttpRequest_le h
  unfold chunkedBody at hbody
  split at hbody
  · obtain ⟨n, -, rfl⟩ := Option.map_eq_some_iff.mp hbody
    rw [List.length_drop]
    exact Nat.le_trans (Nat.sub_le _ _) hraw
  · cases hbody

/-- **Decoding is safe** for a chunked request exactly when its sizes fit. -/
theorem decoding_safe_iff (limit : RequestLimit) (s : ClientStream) {raw body : Bytes}
    (hread : readHttpRequest limit.size s = .request raw) (hbody : chunkedBody raw = some body) :
    DecodeState.Safe limit.size body ↔ SizesFit limit.size body :=
  DecodeState.safe_iff (length_chunkedBody_le hread hbody)

/-- A chunked request with this body, read in one piece. -/
def chunkedStream (body : Bytes) : ClientStream where
  bytes := lit "POST /v1/responses HTTP/1.1\r\nTransfer-Encoding: chunked\r\n\r\n" ++ body
  ending := .closed
  cuts := fun _ => 4095

/-- A chunk of two bytes and the last one. -/
def twoByteBody : Bytes := lit "2\r\nhi\r\n0\r\n\r\n"

theorem decoding_safe_iff_two_bytes :
    DecodeState.Safe 1048576 twoByteBody ↔ SizesFit 1048576 twoByteBody :=
  @decoding_safe_iff defaultLimit (chunkedStream twoByteBody) (chunkedStream twoByteBody).bytes
    twoByteBody (by decide +kernel) (by decide +kernel)

/-- A chunk of two bytes, and a size that is the largest `long`. -/
def hugeBody : Bytes := lit "2\r\nhi\r\n7fffffffffffffff\r\n0\r\n\r\n"

/-- The doubling does not end for a size of 2⁶³ − 1 behind two bytes. -/
theorem decoding_hangs :
    ¬ ∀ (limit : RequestLimit) (s : ClientStream) (raw body : Bytes),
      readHttpRequest limit.size s = .request raw → chunkedBody raw = some body →
        DecodeState.Safe limit.size body := by
  intro h
  have hsafe := h defaultLimit (chunkedStream hugeBody) (chunkedStream hugeBody).bytes hugeBody
    (by decide +kernel) (by decide +kernel)
  have hfit := (DecodeState.safe_iff (by decide)).mp hsafe
  have hfirst : readSizeLine hugeBody = .chunk 2 (hugeBody.drop 3) := by decide +kernel
  have hsecond : readSizeLine (behindChunk 2 (hugeBody.drop 3)) =
      .chunk longMax (lit "0\r\n\r\n") := by
    decide +kernel
  have hsum := hfit _ _ _ _ (.chunk .start hfirst (by decide)) hsecond
  exact absurd hsum (by decide)

end StarBridge
