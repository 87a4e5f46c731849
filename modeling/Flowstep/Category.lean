/-!
The two kinds of units a project is made of.
-/
namespace Flowstep

inductive Category where
  | process
  | module
deriving DecidableEq, Repr, Inhabited

namespace Category

def word : Category → String
  | .process => "process"
  | .module => "module"

def ofWord? : String → Option Category
  | "process" => some .process
  | "module" => some .module
  | _ => none

end Category

end Flowstep
