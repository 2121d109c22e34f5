import FunasrApi.Api.Uploads
import FunasrApi.Archive.AudioBackup
import FunasrApi.Archive.Keeping
import FunasrApi.Archive.KeyRoundTrip
import FunasrApi.Archive.PostProcessing
import FunasrApi.Archive.Restoring
import FunasrApi.Config.Builders
import FunasrApi.Config.Source
import FunasrApi.Config.Validation
import FunasrApi.Core.Alike
import FunasrApi.Core.Chunking
import FunasrApi.Core.Coalescing
import FunasrApi.Core.Effects
import FunasrApi.Core.EmissionLog
import FunasrApi.Core.History
import FunasrApi.Core.Json
import FunasrApi.Core.Keyed
import FunasrApi.Core.ListLoops
import FunasrApi.Core.Memo
import FunasrApi.Core.Numeric
import FunasrApi.Core.PriorityQueue
import FunasrApi.Core.PurePath
import FunasrApi.Core.PythonText
import FunasrApi.Core.Transition
import FunasrApi.Core.WhileLoop
import FunasrApi.Core.WorkerPool
import FunasrApi.Hotwords.Loader
import FunasrApi.Hotwords.ModelFormat
import FunasrApi.Hotwords.Records
import FunasrApi.Logging.Filling
import FunasrApi.Logging.Masking
import FunasrApi.Logging.Payload
import FunasrApi.Offline.AlignConservation
import FunasrApi.Offline.ModelPool
import FunasrApi.Offline.OnnxMerge
import FunasrApi.Offline.PtMerge
import FunasrApi.Offline.Recognizers
import FunasrApi.Offline.SegmentAlignment
import FunasrApi.Offline.SegmentDecodes
import FunasrApi.Offline.SentenceBuilder
import FunasrApi.Offline.SentenceCounting
import FunasrApi.Offline.SpeakerLookup
import FunasrApi.Offline.Speakers
import FunasrApi.Offline.TextUnits
import FunasrApi.Offline.Timestamps
import FunasrApi.Offline.UnitMerging
import FunasrApi.Offline.VadFallback
import FunasrApi.Online.AudioBuffer
import FunasrApi.Online.BufferRefinement
import FunasrApi.Online.CleanText
import FunasrApi.Online.FinalTokens
import FunasrApi.Online.FlushAgreement
import FunasrApi.Online.GlobalTimestamps
import FunasrApi.Online.Live.Delivery
import FunasrApi.Online.Live.Runtime
import FunasrApi.Online.Live.Told
import FunasrApi.Online.LockedSentences
import FunasrApi.Online.ModelPayload
import FunasrApi.Online.Packetization
import FunasrApi.Online.PartialMerging
import FunasrApi.Online.PhrasePieces
import FunasrApi.Online.PtSession
import FunasrApi.Online.PtTail
import FunasrApi.Online.PuncWrapper
import FunasrApi.Online.RepeatedPhrases
import FunasrApi.Online.SeamRepair
import FunasrApi.Online.SegmentQueue
import FunasrApi.Online.Session
import FunasrApi.Online.SessionIntake
import FunasrApi.Online.SessionInvariant
import FunasrApi.Online.SessionPolicy
import FunasrApi.Online.SessionSafety
import FunasrApi.Online.Stream.Answers
import FunasrApi.Online.Stream.DeadWorker
import FunasrApi.Online.Stream.Delivery
import FunasrApi.Online.Stream.GenerationSteps
import FunasrApi.Online.Stream.Generations
import FunasrApi.Online.Stream.Locks
import FunasrApi.Online.Stream.Moves
import FunasrApi.Online.Stream.Progress
import FunasrApi.Online.Stream.Runtime
import FunasrApi.Online.Stream.Serial
import FunasrApi.Online.Stream.Trace
import FunasrApi.Online.TextBoundary
import FunasrApi.Online.TextCleaning
import FunasrApi.Online.TranscriptGrowth
import FunasrApi.Online.TrimSafety
import FunasrApi.Online.VadBlocks
import FunasrApi.Online.VadFailures
import FunasrApi.Online.VadProtocol
import FunasrApi.Processing.Finishing
import FunasrApi.Processing.Isolation
import FunasrApi.Processing.OfflineTask
import FunasrApi.Processing.Outcome
import FunasrApi.Processing.ServedQueue
import FunasrApi.Processing.SpkOutcome
import FunasrApi.Processing.SpkTask
import FunasrApi.Queue.Recovery
import FunasrApi.Queue.Registry
import FunasrApi.Queue.Restart
import FunasrApi.Queue.Scheduling
import FunasrApi.Queue.TaskBoard
import FunasrApi.Queue.Workers
import FunasrApi.Repositories.Agreement
import FunasrApi.Repositories.SpeakerTasks
import FunasrApi.Repositories.TaskRepositories
import FunasrApi.Repositories.TaskRows
import FunasrApi.Results.Recognition
import FunasrApi.Results.SpeakerText
import FunasrApi.Runtime.ModelCalls
import FunasrApi.Runtime.ModelCoherence
import FunasrApi.Runtime.ModelProvider
import FunasrApi.Runtime.ServiceModels
import FunasrApi.Runtime.Services
import FunasrApi.Runtime.Startup
import FunasrApi.Tasks.Record
import FunasrApi.Tasks.SavedUploads
import FunasrApi.Tasks.Submission
import FunasrApi.Tasks.SubmissionOutcome
import FunasrApi.Tasks.TempFiles
