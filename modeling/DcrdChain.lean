import DcrdChain.Block
import DcrdChain.ChainView
import DcrdChain.BestState
import DcrdChain.State
import DcrdChain.Effects
import DcrdChain.Connect
import DcrdChain.Reorganize
import DcrdChain.BestChain
import DcrdChain.Run
import DcrdChain.Orphans
import DcrdChain.OrphanIndex
import DcrdChain.OrphanCapacity
import DcrdChain.Frame
import DcrdChain.TipTransition
import DcrdChain.Snapshot
import DcrdChain.DryRun
import DcrdChain.Lock
import DcrdChain.Raises
import DcrdChain.Rollback
import DcrdChain.Consistent
import DcrdChain.Commit
import DcrdChain.Spec
import DcrdChain.Moves
import DcrdChain.RefineTip
import DcrdChain.RefineReorganize
import DcrdChain.RefineRun
import DcrdChain.StatusSound
import DcrdChain.Totals
import DcrdChain.Queries
import DcrdChain.Versions
import DcrdChain.OrphanRoot
import DcrdChain.Prune
import DcrdChain.ReorganizeNodes
import DcrdChain.Outcomes
import DcrdChain.BlockCache
import DcrdChain.RefineCache
import DcrdChain.Failures
import DcrdChain.HeaviestTip
import DcrdChain.Runs
import DcrdChain.Lookups
import DcrdChain.Notifications
import DcrdChain.Deployments
import DcrdChain.Persistence
