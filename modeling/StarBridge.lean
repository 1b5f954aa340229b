import StarBridge.FrameStream
import StarBridge.SessionRuns
import StarBridge.StaleFrames
import StarBridge.StreamAgreement
import StarBridge.StreamTerminals
import StarBridge.ResponseHeads
import StarBridge.Transports
import StarBridge.TransportRuns
import StarBridge.SilentRuns
import StarBridge.StdioTurns
import StarBridge.CancelScope
import StarBridge.Admission
import StarBridge.Routers
import StarBridge.Segmentation
import StarBridge.HealthCheck
import StarBridge.HeartbeatTurns
import StarBridge.IndexRuns
import StarBridge.AckRecords
import StarBridge.AckPairing
import StarBridge.JsonPrefix
import StarBridge.IndexFile
import StarBridge.IndexPersistence
import StarBridge.Sections
import StarBridge.SectionBlocks
import StarBridge.ManagedConfig
import StarBridge.ManagedText
import StarBridge.ManagedInstall
import StarBridge.ManagedRoundTrip
import StarBridge.ManagedStatus
import StarBridge.JsonTokens
import StarBridge.JsonGrammar
import StarBridge.JsonFields
import StarBridge.ControlFrames
import StarBridge.JsonSpelling
import StarBridge.Drafts
import StarBridge.RequestFrame
import StarBridge.Redaction
import StarBridge.ToolRunner
import StarBridge.PermittedCommands
import StarBridge.ToolResultFrame
import StarBridge.RequestParser
import StarBridge.RequestTexts
import StarBridge.RequestFields
import StarBridge.Traces
import StarBridge.Authentication
import StarBridge.PrintedJson
import StarBridge.ToolIntents
import StarBridge.StreamSequence
import StarBridge.StreamPayloads
import StarBridge.TextStreams
import StarBridge.Utf8
import StarBridge.CharacterChunks
import StarBridge.TurnBudget
import StarBridge.AnswerBytes
import StarBridge.TurnEnds
import StarBridge.EventCap
import StarBridge.CompactionNotices
import StarBridge.TomlLines
import StarBridge.ManagedToml
import StarBridge.RingBuffers
import StarBridge.StdioReader
import StarBridge.StdioText
import StarBridge.StdioLink
import StarBridge.WhileLoops
import StarBridge.ListingCompaction
import StarBridge.WrapperText
import StarBridge.WrapperTurns
import StarBridge.WrapperSessions
import StarBridge.EffortTracker
import StarBridge.SharedStdout
import StarBridge.Settings
import StarBridge.CommandLine
import StarBridge.Startup
import StarBridge.PortSources
import StarBridge.CheckedSettings
import StarBridge.JsonReprint
import StarBridge.ToolPrompt
import StarBridge.SessionKeys
import StarBridge.ChunkDecoder
import StarBridge.ChunkGrammar
import StarBridge.ChunkRoundTrip
import StarBridge.FrameSending
import StarBridge.ReadyFrames
import StarBridge.RedactionBounds
import StarBridge.NativeHello
import StarBridge.ToolCapture
import StarBridge.StrictArgs
import StarBridge.HeaderLines
import StarBridge.HostCheck
import StarBridge.StreamSocket
import StarBridge.JsonStrings
import StarBridge.ToolHistory
import StarBridge.SessionNotices
import StarBridge.FrameReading
import StarBridge.StringDecoding
import StarBridge.Keywords
import StarBridge.CapabilityRouter
import StarBridge.HistoryStore
import StarBridge.HistoryEmbedding
import StarBridge.RequestAcceptance
import StarBridge.ToolOutcomes
import StarBridge.NativeUsage
import StarBridge.UsageReports
import StarBridge.JsonLines
import StarBridge.ResponseSerializer
import StarBridge.FilledLines
import StarBridge.Continuations
import StarBridge.EscapeBuffer
import StarBridge.RingText
import StarBridge.ContentLength
import StarBridge.OwnedText
import StarBridge.RequestOffsets
import StarBridge.StreamArrays
import StarBridge.JsonLog
import StarBridge.Descriptors
import StarBridge.UdsConnect
import StarBridge.NativeConnection
import StarBridge.EngineLife
import StarBridge.LossyDecoding
import StarBridge.PtyReader
import StarBridge.NativePrompt
import StarBridge.PromptLines
import StarBridge.Words
import StarBridge.AgentPrompts
import StarBridge.FrameRouter
import StarBridge.AgentMemory
import StarBridge.JsonDumps
import StarBridge.LiveAnswers
