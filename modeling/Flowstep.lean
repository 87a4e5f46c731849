import Flowstep.Main
import Flowstep.Shell
import Flowstep.Run.Remote
import Flowstep.Proofs.Stopping
import Flowstep.Proofs.Grammar
import Flowstep.Proofs.StaleEntries
import Flowstep.Proofs.ExactlyOnce
import Flowstep.Proofs.Attribution
import Flowstep.Proofs.Steering
import Flowstep.Proofs.Archives
import Flowstep.Proofs.Requirements
import Flowstep.Proofs.Stepping
import Flowstep.Proofs.LoopBounds
import Flowstep.Proofs.Shedding
import Flowstep.Proofs.BreakpointSets
import Flowstep.Proofs.Ranges
import Flowstep.Proofs.Versions
import Flowstep.Proofs.JsonForms
import Flowstep.Proofs.Conditions
import Flowstep.Proofs.IndentWidth
import Flowstep.Proofs.Printing
import Flowstep.Proofs.GlobalTable
import Flowstep.Proofs.Stacks
import Flowstep.Proofs.TokenLayout
import Flowstep.Proofs.Places
import Flowstep.Proofs.Endings
