import CodeSpace.Store.CoordinationBarrier
import CodeSpace.Runner.Recall
import CodeSpace.Runner.Errands
import CodeSpace.Runner.Reclaim
import CodeSpace.Store.ApprovalLifecycle
import CodeSpace.Server.PatchOnce
import CodeSpace.Server.ResumeOnce
import CodeSpace.Store.ReportOrder
import CodeSpace.Server.RefusedResume
import CodeSpace.Server.Settlement
import CodeSpace.Server.AdmissionSafety
import CodeSpace.Store.QueuePositions
import CodeSpace.Store.QueueFairness
import CodeSpace.Server.ExitLeases
import CodeSpace.Server.KeptEnds
import CodeSpace.Runner.PatchRollback
import CodeSpace.Runner.PatchVersions
import CodeSpace.Runner.LinkWrites
import CodeSpace.Runner.WireFrames
import CodeSpace.Runner.HostLifecycle
import CodeSpace.Runner.SlotSafety
import CodeSpace.Runner.StdinWrites
import CodeSpace.Runner.TreeWalk
import CodeSpace.Runner.Globs
