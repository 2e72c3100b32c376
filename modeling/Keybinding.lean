import Keybinding.Main
import Keybinding.Proofs.Action.Parts
import Keybinding.Proofs.Chord.Accelerator
import Keybinding.Proofs.Chord.Fault
import Keybinding.Proofs.Chord.Order
import Keybinding.Proofs.Chord.Printing
import Keybinding.Proofs.CommandLine.Agreement
import Keybinding.Proofs.CommandLine.Context
import Keybinding.Proofs.CommandLine.Options
import Keybinding.Proofs.Condition.Height
import Keybinding.Proofs.Condition.Lexing
import Keybinding.Proofs.Condition.Printing
import Keybinding.Proofs.Condition.Segments
import Keybinding.Proofs.Condition.Shortest
import Keybinding.Proofs.Condition.Support
import Keybinding.Proofs.Condition.Viability
import Keybinding.Proofs.FlagSet
import Keybinding.Proofs.GroupText.Empty
import Keybinding.Proofs.GroupText.Reading
import Keybinding.Proofs.Router
import Keybinding.Proofs.Session.Failure
import Keybinding.Proofs.Session.Keymap
import Keybinding.Proofs.Session.Router
import Keybinding.Proofs.Snapshot
import Keybinding.Proofs.Snapshot.Leniency
import Keybinding.Proofs.Snapshot.Printing
import Keybinding.Proofs.Table.Effective
import Keybinding.Proofs.Table.Fault
import Keybinding.Proofs.Table.Recasing
import Keybinding.Proofs.Table.Relevance
import Keybinding.Proofs.Table.Reordering
import Keybinding.Proofs.Table.Resolution
import Keybinding.Proofs.Table.Unconditional
import Keybinding.Proofs.Table.Writing
import Keybinding.Session.Run
