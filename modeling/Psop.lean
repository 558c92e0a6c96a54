import Psop.Runs
import Psop.Runtime.Moves
import Psop.Runtime.Events
import Psop.Runtime.Keys
import Psop.Runtime.Finality
import Psop.Runtime.Guards
import Psop.Runtime.Transitions
import Psop.Runtime.Wakeup
import Psop.Runtime.Recovery
import Psop.Runtime.Fork
import Psop.Runtime.Abort
import Psop.Runtime.Revision
import Psop.Jobs.Fence
import Psop.Agents.Bindings
import Psop.Jobs.Held
import Psop.Skills.Latest
import Psop.Skills.Edits
import Psop.Skills.Generation
import Psop.Skills.Lifecycle
import Psop.Jobs.Exhaustion
import Psop.Runtime.Intake
import Psop.Runtime.Rounds
import Psop.Runtime.Stages
import Psop.Runtime.Regress
import Psop.Runtime.Grounds
import Psop.Runtime.Answer
import Psop.Runtime.Parts
import Psop.SkillTests.Inline
import Psop.SkillTests.Driver
import Psop.SkillTests.Driving
import Psop.Builder.Reconcile
import Psop.Runtime.Redaction
import Psop.Runtime.Ingest
import Psop.Runtime.Numbering
import Psop.Digits
import Psop.Runtime.Media
import Psop.Agents.ToolCalls
import Psop.Skills.Frames
import Psop.Calendar
import Psop.Agents.Sandbox
import Psop.Client.Live
import Psop.SkillTests.Transcript
import Psop.Builder.Images
import Psop.Builder.Attempts
import Psop.Compiler.Valid
import Psop.Compiler.Publishing
