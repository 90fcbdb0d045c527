import GrammarProfile.Grammar.Loader

/-!
Grammars kept under keys. A key is loaded at most once, and a failed load leaves no trace.
-/
namespace GrammarProfile.Grammar

abbrev Registry := OrderedMap Model

namespace Registry

/-- Keeps a model under a key, in place of an earlier one. -/
def register (r : Registry) (key : String) (m : Model) : Registry := r.insert key m

def require (r : Registry) (key : String) : Except Error Model :=
  match r.get? key with
  | some m => .ok m
  | none => .error (.notFound key)

/-- The model under a key, which is loaded if there is none. -/
def getOrLoad (r : Registry) (key : String) (load : Except Error Model) :
    Except Error Model × Registry :=
  match r.get? key with
  | some m => (.ok m, r)
  | none =>
    match load with
    | .ok m => (.ok m, r.insert key m)
    | .error e => (.error e, r)

end Registry

/-- The grammar in a file, which is loaded at most once; its path is the key. -/
def Registry.loadPath (r : Registry) (files : Files) (path : String) :
    Except Error Model × Registry :=
  r.getOrLoad path (Model.ofFile none (files.read path))

end GrammarProfile.Grammar
