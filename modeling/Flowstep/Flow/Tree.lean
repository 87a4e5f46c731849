import Flowstep.Flow.Token

/-!
The structure of a flow: statements, with blocks inside blocks.
-/
namespace Flowstep.Flow

inductive Gate where
  | comparison
  | call
deriving DecidableEq, Repr, Inhabited

inductive LoopKind where
  | while
  | call
  | range
  | list
  | map
deriving DecidableEq, Repr, Inhabited

mutual

-- A statement of a flow. A block that the flow leaves open has no closing step.
inductive Statement where
  | atomic (step : Step)
  | «break» (step : Step)
  | «continue» (step : Step)
  | «return» (step : Step)
  | branch (gate : Gate) (step : Step) (body : List Statement) (alternatives : List Clause)
    (otherwise : Option Clause) (closing : Option Step)
  | loop (kind : LoopKind) (step : Step) (body : List Statement) (closing : Option Step)
  | attempt (step : Step) (body : List Statement) (handler : Option Clause)
    (final : Option Clause) (closing : Option Step)

structure Clause where
  step : Step
  body : List Statement

end

instance : Inhabited Statement := ⟨.atomic default⟩

mutual

def Statement.steps : Statement → List Step
  | .atomic step | .break step | .continue step | .return step => [step]
  | .branch _ step body alternatives otherwise closing =>
    step :: (blockSteps body ++ clausesSteps alternatives ++ clauseSteps otherwise ++ closing.toList)
  | .loop _ step body closing => step :: (blockSteps body ++ closing.toList)
  | .attempt step body handler final closing =>
    step :: (blockSteps body ++ clauseSteps handler ++ clauseSteps final ++ closing.toList)

def blockSteps : List Statement → List Step
  | [] => []
  | s :: rest => s.steps ++ blockSteps rest

def clausesSteps : List Clause → List Step
  | [] => []
  | ⟨step, body⟩ :: rest => (step :: blockSteps body) ++ clausesSteps rest

def clauseSteps : Option Clause → List Step
  | none => []
  | some ⟨step, body⟩ => step :: blockSteps body

end

mutual

def Statement.calls : Statement → List Step
  | .atomic step => [step]
  | .break _ | .continue _ | .return _ => []
  | .branch gate step body alternatives otherwise _ =>
    (if gate = .call then [step] else []) ++ blockCalls body ++ clausesCalls alternatives ++
      clauseCalls otherwise
  | .loop kind step body _ => (if kind = .call then [step] else []) ++ blockCalls body
  | .attempt _ body handler final _ => blockCalls body ++ clauseCalls handler ++ clauseCalls final

def blockCalls : List Statement → List Step
  | [] => []
  | s :: rest => s.calls ++ blockCalls rest

def clausesCalls : List Clause → List Step
  | [] => []
  | ⟨_, body⟩ :: rest => blockCalls body ++ clausesCalls rest

def clauseCalls : Option Clause → List Step
  | none => []
  | some ⟨_, body⟩ => blockCalls body

end

end Flowstep.Flow
