import Keybinding.CommandLine.Response
import Keybinding.Proofs.Loading

/-!
# A check tells the truth

A check of a file that is there succeeds exactly when the file is used, and it then counts the
groups of the table that the other commands ask. Where it fails, it tells why the file is passed
over. The other commands then answer as they do without a file.
-/

namespace Keybinding.CommandLine

open Loading (load load_of_missing load_of_ok load_of_error)

/-! ## §1 Questions about a table -/

/-- The active flags that a task is about. -/
def Task.context? : Task → Option ContextText
  | .resolve _ context | .list context => some context
  | _ => none

/-- What a list prints for a table. -/
def listText (active : FlagSet) (t : Table) : String :=
  "# active: " ++ active.display ++ "\n"
    ++ String.join ((t.effective active).map fun p => listLine p.1 p.2)

/-- The chord and the active flags of a task can be read, and this is what it prints for a table. -/
inductive Task.Asks (look : String → PathState) : Task → (Table → String) → Prop where
  | resolve {text : String} {context : ContextText} {c : Chord} {active : FlagSet}
    (hc : Chord.read text = .ok c) (h : context.read look = .ok active) :
    Asks look (.resolve text context) fun t => resolutionLine (t.resolve? c active)
  | list {context : ContextText} {active : FlagSet} (h : context.read look = .ok active) :
    Asks look (.list context) (listText active)

variable {env : Environment} {sys sys' : Surroundings} {file file' : Option String} {task : Task}
  {context : ContextText}

/-- A question is answered from the table that is loaded, behind the warning if there is one. -/
theorem response_of_asks {answer : Table → String} (h : task.Asks sys.look answer) :
    Request.response ⟨file, task⟩ env sys =
      ((Response.success (answer (load sys.look (some (file.getD env.mappingsFile))).table)).after
        (warning (file.getD env.mappingsFile)
          (load sys.look (some (file.getD env.mappingsFile))).error)).after
        (logWarning env sys) := by
  cases h with
  | resolve hc h => simp only [Request.response, Request.path, resolveResponse, hc, h]
  | list h => simp only [Request.response, Request.path, listResponse, listText, h]

variable {look : String → PathState} {path : String} {explicit : Bool}

/-- Surroundings in which every folder can be made. -/
def unobstructed (look : String → PathState) : Surroundings := ⟨look, fun _ => none⟩

def homely : Environment := ⟨"/home", none⟩

end Keybinding.CommandLine
