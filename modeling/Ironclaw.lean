import Ironclaw.Authorization.LeaseIndex
import Ironclaw.Authorization.LeaseStore
import Ironclaw.Capabilities.ResumeOutcome
import Ironclaw.Events.CoalescingSink
import Ironclaw.Events.Isolation
import Ironclaw.Filesystem.CasUpdate
import Ironclaw.Filesystem.Confinement
import Ironclaw.Hooks.DenyWins
import Ironclaw.Hooks.InvocationCap
import Ironclaw.Llm.CircuitBreaker
import Ironclaw.LoopHost.BudgetAccountant
import Ironclaw.LoopHost.BudgetSeeding
import Ironclaw.Processes.Outcome
import Ironclaw.Resources.Compaction
import Ironclaw.Resources.Concurrent
import Ironclaw.Resources.Mirror
import Ironclaw.Safety.LeakDetector
import Ironclaw.Secrets.Expiry
import Ironclaw.Subagent.FastChild
import Ironclaw.Subagent.RosterRace
import Ironclaw.Triggers.Fires
import Ironclaw.Turns.BlockPersistence
import Ironclaw.Turns.EventCursors
import Ironclaw.Turns.Integrity
import Ironclaw.Turns.Paging
import Ironclaw.Turns.PersistRace
import Ironclaw.Turns.Refusals
import Ironclaw.Turns.Replay
import Ironclaw.Turns.Slots
import Ironclaw.Turns.SubmitRace
