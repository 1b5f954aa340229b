import StarBridge.IndexFile
import StarBridge.NativeResponse

/-!
# Values that are kept whole

Strings and printed JSON end up in buffers of fixed sizes, as C strings.  A
buffer keeps a text whole iff the text fits and has no terminator in it, and
`cJSON_PrintUnformatted` prints a value whole iff no string in it has one.
-/

namespace StarBridge

open CText

/-! ## Strings -/

/-- The string a member holds, with the terminators inside it. -/
def CJson.stringValue (obj : CJson) (field : Bytes) : Option Bytes :=
  match obj.getObjectItem field with
  | some (.string value) => some value
  | _ => none

theorem CJson.stringField_eq (obj : CJson) (field : Bytes) :
    obj.stringField field = (obj.stringValue field).map cstr := by
  unfold CJson.stringField CJson.stringValue
  split <;> simp_all

instance (size : Nat) (text : Bytes) : Decidable (HoldsText size text) :=
  inferInstanceAs (Decidable (_ ∧ _))

/-- `json_get_string` into an empty buffer. -/
theorem CJson.getString_nil (obj : CJson) (field : Bytes) (size : Nat) :
    obj.getString field [] size = clip size (cstr ((obj.stringValue field).getD [])) := by
  rw [CJson.getString, CJson.stringField_eq]
  cases obj.stringValue field with
  | none => exact (clip_nil size).symm
  | some value => rfl

/-! ## JSON that is printed whole

`cJSON_PrintUnformatted` prints strings as C strings: what follows a terminator
is left out. -/

/-- A text `cut` from `whole`: the same if `P` holds, and shorter if not. -/
structure CutUnless (P : Prop) (cut whole : Bytes) : Prop where
  length_le : cut.length ≤ whole.length
  of_length : cut.length = whole.length → P
  eq_of : P → cut = whole

theorem CutUnless.same (text : Bytes) : CutUnless True text text :=
  ⟨le_refl _, fun _ => trivial, fun _ => rfl⟩

theorem CutUnless.append {P Q : Prop} {cut whole cut' whole' : Bytes} (h : CutUnless P cut whole)
    (h' : CutUnless Q cut' whole') : CutUnless (P ∧ Q) (cut ++ cut') (whole ++ whole') := by
  obtain ⟨hle, hlen, heq⟩ := h
  obtain ⟨hle', hlen', heq'⟩ := h'
  refine ⟨?_, fun hall => ?_, fun ⟨hp, hq⟩ => by rw [heq hp, heq' hq]⟩
  · rw [List.length_append, List.length_append]
    omega
  · rw [List.length_append, List.length_append] at hall
    exact ⟨hlen (by omega), hlen' (by omega)⟩

theorem CutUnless.congr {P Q : Prop} {cut whole : Bytes} (h : CutUnless P cut whole)
    (hiff : P ↔ Q) : CutUnless Q cut whole :=
  ⟨h.length_le, fun hlen => hiff.mp (h.of_length hlen), fun hq => h.eq_of (hiff.mpr hq)⟩

/-- A buffer holds the whole text iff nothing was cut and it has room. -/
theorem CutUnless.clip_iff {P : Prop} {cut whole : Bytes} (h : CutUnless P cut whole) {size : Nat}
    (hsize : 0 < size) : clip size cut = whole ↔ P ∧ whole.length < size := by
  constructor
  · intro hclip
    have hshort := length_clip_lt hsize cut
    have htake : (clip size cut).length ≤ cut.length := List.length_take_le' _ _
    rw [hclip] at hshort htake
    exact ⟨h.of_length (le_antisymm h.length_le htake), hshort⟩
  · rintro ⟨hp, hlen⟩
    rw [h.eq_of hp]
    exact clip_eq_self hlen

namespace CJson

mutual

/-- A value as JSON, given how numbers are written. -/
def jsonText (printNumber : Bytes → Bytes) : CJson → Bytes
  | .null => lit "null"
  | .bool true => lit "true"
  | .bool false => lit "false"
  | .number literal => printNumber literal
  | .string value => quoted value
  | .array items => lit "[" ++ jsonItems printNumber items ++ lit "]"
  | .object members => lit "\x7b" ++ jsonMembers printNumber members ++ lit "\x7d"

/-- The elements of an array. -/
def jsonItems (printNumber : Bytes → Bytes) : List CJson → Bytes
  | [] => []
  | [item] => jsonText printNumber item
  | item :: rest => jsonText printNumber item ++ lit "," ++ jsonItems printNumber rest

/-- The members of an object. -/
def jsonMembers (printNumber : Bytes → Bytes) : List (Bytes × CJson) → Bytes
  | [] => []
  | [(name, value)] => quoted name ++ lit ":" ++ jsonText printNumber value
  | (name, value) :: rest =>
      quoted name ++ lit ":" ++ jsonText printNumber value ++ lit "," ++
        jsonMembers printNumber rest

end

mutual

/-- No string or name inside a value has a terminator. -/
def Whole : CJson → Prop
  | .string value => 0 ∉ value
  | .array items => WholeItems items
  | .object members => WholeMembers members
  | _ => True

/-- None in the elements of an array. -/
def WholeItems : List CJson → Prop
  | [] => True
  | item :: rest => Whole item ∧ WholeItems rest

/-- None in the members of an object. -/
def WholeMembers : List (Bytes × CJson) → Prop
  | [] => True
  | (name, value) :: rest => (0 ∉ name ∧ Whole value) ∧ WholeMembers rest

end

theorem printString_cut (value : Bytes) : CutUnless (0 ∉ value) (printString value) (quoted value) := by
  have hsplit : cstr value ++ value.dropWhile (· ≠ 0) = value := List.takeWhile_append_dropWhile
  have hescape : escapeAll value =
      escapeAll (cstr value) ++ escapeAll (value.dropWhile (· ≠ 0)) := by
    rw [← escapeAll_append, hsplit]
  refine ⟨?_, fun hlen => ?_, fun hzero => ?_⟩
  · simp only [printString, quoted, hescape, List.length_cons, List.length_append]
    omega
  · simp only [printString, quoted, hescape, List.length_cons, List.length_append] at hlen
    have hempty : escapeAll (value.dropWhile (· ≠ 0)) = [] :=
      List.eq_nil_of_length_eq_zero (by omega)
    cases hrest : value.dropWhile (· ≠ 0) with
    | nil =>
        rw [hrest, List.append_nil] at hsplit
        rw [← hsplit]
        exact stop_not_mem_upTo 0 value
    | cons c rest =>
        rw [hrest, escapeAll_cons] at hempty
        have hbyte := (List.append_eq_nil_iff.mp hempty).1
        rcases escapeByte_cases c with ⟨_, -, -, heq⟩ | ⟨-, heq⟩ | ⟨-, -, heq⟩ <;>
          rw [heq] at hbyte <;> cases hbyte
  · rw [printString, quoted, show cstr value = value from upTo_eq_self hzero]

mutual

/-- A value is printed whole iff no string or name in it has a terminator, and
cut otherwise. -/
theorem print_cut (printNumber : Bytes → Bytes) :
    ∀ v : CJson, CutUnless v.Whole (v.print printNumber) (v.jsonText printNumber)
  | .null => .same _
  | .bool true => .same _
  | .bool false => .same _
  | .number literal => .same _
  | .string value => printString_cut value
  | .array items =>
      (((CutUnless.same (lit "[")).append (printItems_cut printNumber items)).append
        (.same (lit "]"))).congr (by rw [true_and, and_true]; rfl)
  | .object members =>
      (((CutUnless.same (lit "\x7b")).append (printMembers_cut printNumber members)).append
        (.same (lit "\x7d"))).congr (by rw [true_and, and_true]; rfl)

theorem printItems_cut (printNumber : Bytes → Bytes) :
    ∀ items : List CJson, CutUnless (WholeItems items) (printItems printNumber items)
      (jsonItems printNumber items)
  | [] => .same _
  | [item] => (print_cut printNumber item).congr (and_true _).symm.to_iff
  | item :: second :: rest =>
      (((print_cut printNumber item).append (.same (lit ","))).append
        (printItems_cut printNumber (second :: rest))).congr (by rw [and_true]; rfl)

theorem printMembers_cut (printNumber : Bytes → Bytes) :
    ∀ members : List (Bytes × CJson), CutUnless (WholeMembers members)
      (printMembers printNumber members) (jsonMembers printNumber members)
  | [] => .same _
  | [(name, value)] =>
      (((printString_cut name).append (.same (lit ":"))).append
        (print_cut printNumber value)).congr (by simp [WholeMembers])
  | (name, value) :: second :: rest =>
      (((((printString_cut name).append (.same (lit ":"))).append
        (print_cut printNumber value)).append (.same (lit ","))).append
          (printMembers_cut printNumber (second :: rest))).congr (by simp [WholeMembers])

end

end CJson

/-- What a value is printed as stands in what an object with it is printed as. -/
theorem CJson.print_infix_printMembers (printNumber : Bytes → Bytes)
    {members : List (Bytes × CJson)} {m : Bytes × CJson} (hmem : m ∈ members) :
    m.2.print printNumber <:+: CJson.printMembers printNumber members := by
  induction members with
  | nil => cases hmem
  | cons first rest ih =>
      have hfirst : ∀ more, first.2.print printNumber <:+:
          CJson.printString first.1 ++ lit ":" ++ first.2.print printNumber ++ more :=
        fun more => ⟨CJson.printString first.1 ++ lit ":", more, rfl⟩
      cases rest with
      | nil =>
          rw [List.mem_singleton] at hmem
          subst hmem
          have hone := hfirst []
          rw [List.append_nil] at hone
          rw [CJson.printMembers]
          exact hone
      | cons second rest =>
          rw [CJson.printMembers.eq_3 _ _ _ _ (by simp)]
          rcases List.mem_cons.mp hmem with rfl | hrest
          · rw [List.append_assoc]
            exact hfirst _
          · exact (ih hrest).trans (List.suffix_append _ _).isInfix

/-- A value that is printed whole into a buffer. -/
def PrintFits (printNumber : Bytes → Bytes) (size : Nat) (v : CJson) : Prop :=
  v.Whole ∧ (v.jsonText printNumber).length < size

theorem printFits_iff {printNumber : Bytes → Bytes} {size : Nat} (hsize : 0 < size) (v : CJson) :
    clip size (v.print printNumber) = v.jsonText printNumber ↔ PrintFits printNumber size v :=
  (CJson.print_cut printNumber v).clip_iff hsize

end StarBridge
