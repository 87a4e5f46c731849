import Flowstep.Script.Value

/-!
The trees of script text.
-/
namespace Flowstep.Script

inductive BinOp where
  | add
  | sub
  | mul
  | div
  | mod
deriving DecidableEq, Repr

def BinOp.symbol : BinOp → String
  | .add => "+"
  | .sub => "-"
  | .mul => "*"
  | .div => "/"
  | .mod => "%"

inductive CmpOp where
  | eq
  | ne
  | lt
  | le
  | gt
  | ge
  | isIn
  | notIn
deriving DecidableEq, Repr

def CmpOp.symbol : CmpOp → String
  | .eq => "=="
  | .ne => "!="
  | .lt => "<"
  | .le => "<="
  | .gt => ">"
  | .ge => ">="
  | .isIn => "in"
  | .notIn => "not in"

inductive Expr where
  | lit (value : Value)
  | name (name : String)
  | attr (base : Expr) (attr : String)
  | index (base index : Expr)
  | call (callee : Expr) (args : List Expr) (kwargs : List (String × Expr))
  | list (items : List Expr)
  | dict (entries : List (Expr × Expr))
  | not (inner : Expr)
  | neg (inner : Expr)
  | bin (op : BinOp) (left right : Expr)
  | cmp (op : CmpOp) (left right : Expr)
  | and (left right : Expr)
  | or (left right : Expr)
deriving Inhabited

def Expr.dottedPath? : Expr → Option (List String)
  | .name n => some [n]
  | .attr base a => base.dottedPath?.map (· ++ [a])
  | _ => none

inductive Target where
  | name (name : String)
  | index (object index : Expr)
deriving Inhabited

mutual

inductive StmtKind where
  | pass
  | expr (e : Expr)
  | assign (targets : List Target) (value : Expr)
  | augAssign (target : Target) (op : BinOp) (value : Expr)
  | ifChain (arms : List Arm) (otherwise : Option Suite)
  | whileLoop (test : Expr) (body : List Stmt)
  | forLoop (targets : List Target) (source : Expr) (body : List Stmt)
  | tryBlock (body : List Stmt) (handler : Option Handler) (final : Option Suite)
  | break
  | continue
  | return (value : Option Expr)
  | raise (value : Option Expr)
  | define (function : Function)
  | load (name : String)

structure Stmt where
  line : Nat
  kind : StmtKind

structure Suite where
  line : Nat
  body : List Stmt

structure Arm where
  line : Nat
  test : Expr
  body : List Stmt

structure Handler where
  line : Nat
  name : Option String
  body : List Stmt

structure Function where
  name : String
  params : List String
  body : List Stmt
  line : Nat

end

structure Program where
  body : List Stmt

end Flowstep.Script
