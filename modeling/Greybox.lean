import Greybox.Engine.Shared
import Greybox.Main
import Greybox.Proofs.Campaign
import Greybox.Proofs.Corpus
import Greybox.Proofs.Corpus.History
import Greybox.Proofs.Coverage.Merge
import Greybox.Proofs.Coverage.Seen
import Greybox.Proofs.Engine.Deposit
import Greybox.Proofs.Engine.Next
import Greybox.Proofs.Engine.Ownership
import Greybox.Proofs.Engine.Report
import Greybox.Proofs.Engine.StatusLines
import Greybox.Proofs.Engine.Trials
import Greybox.Proofs.Feed
import Greybox.Proofs.Feed.Buffers
import Greybox.Proofs.Feed.BulkRead
import Greybox.Proofs.Feedback
import Greybox.Proofs.Feedback.Preview
import Greybox.Proofs.FileTree
import Greybox.Proofs.FileTree.Content
import Greybox.Proofs.FileTree.Directories
import Greybox.Proofs.FileTree.Enumeration
import Greybox.Proofs.FileTree.Walk
import Greybox.Proofs.Input
import Greybox.Proofs.Input.Misplaced
import Greybox.Proofs.Input.Trim
import Greybox.Proofs.Mutation
import Greybox.Proofs.Mutation.Havoc
import Greybox.Proofs.Mutation.Splice
import Greybox.Proofs.Schedule
import Greybox.Proofs.Schedule.RoundRobin
import Greybox.Proofs.Schedule.Selection
import Greybox.Proofs.Schedule.Share
import Greybox.Proofs.SeedFiles
import Greybox.Proofs.Session.Basic
import Greybox.Proofs.Session.Bookkeeping
import Greybox.Proofs.Session.Claimants
import Greybox.Proofs.Session.Failure
import Greybox.Proofs.Session.Growth
import Greybox.Proofs.Session.Mirror
import Greybox.Proofs.Session.Ownership
import Greybox.Proofs.Session.Reliable
import Greybox.Proofs.Session.Replay
import Greybox.Proofs.Session.Sound
import Greybox.Proofs.Session.StatusLines
import Greybox.Proofs.Session.Steady
import Greybox.Proofs.Session.Union
import Greybox.Proofs.Settings
import Greybox.Proofs.StatusLog
import Greybox.Proofs.Storage.CoverageState
import Greybox.Proofs.Storage.Disk
import Greybox.Proofs.Storage.Leftovers
import Greybox.Proofs.Storage.Prepare
import Greybox.Proofs.Storage.Refinement
import Greybox.Proofs.Storage.Requests
import Greybox.Proofs.Storage.Slots
import Greybox.Proofs.Target.Demo
import Greybox.Proofs.Target.Trace
import Greybox.Proofs.Team
import Greybox.Target.Scripted
import Greybox.Team
