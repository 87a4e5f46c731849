import Flowstep.Script.Interp

/-!
The failures of the operations on values.
-/
namespace Flowstep.Script

variable {α β : Type}

def Fresh (x : Except Stop α) : Prop := ∀ e, x = .error (.error e) → ∃ kind, e = .ofKind kind

@[simp] theorem fresh_ok (a : α) : Fresh (.ok a) := fun _ failed => by cases failed

@[simp] theorem fresh_pure (a : α) : Fresh (pure a) := fresh_ok a

@[simp] theorem fresh_fail (kind : ErrorKind) : Fresh (fail kind : Except Stop α) :=
  fun _ failed => by cases failed; exact ⟨kind, rfl⟩

@[simp] theorem fresh_type (issue : TypeIssue) : Fresh (failType issue : Except Stop α) := fresh_fail _

variable {function : String}

@[simp] theorem fresh_arguments {message : String} : Fresh (failArguments function message : Except Stop α) := fresh_fail _

@[simp] theorem fresh_abort : Fresh (.error .abort : Except Stop α) := fun _ failed => by cases failed

theorem fresh_bind {x : Except Stop α} {f : α → Except Stop β} (first : Fresh x) (second : ∀ a, Fresh (f a)) :
    Fresh (x >>= f) := by
  cases x with
  | ok a => exact second a
  | error stop =>
    intro e failed
    cases failed
    exact first e rfl

theorem fresh_map {x : Except Stop α} {f : α → β} (first : Fresh x) : Fresh (x.map f) := by
  cases x with
  | ok a => exact fresh_ok _
  | error stop =>
    intro e failed
    cases failed
    exact first e rfl

theorem fresh_map_all {x : α → Except Stop β} (each : ∀ a, Fresh (x a)) {l : List α} : Fresh (l.mapM x) := by
  induction l with
  | nil => exact fresh_ok _
  | cons a rest ih =>
    rw [List.mapM_cons]
    exact fresh_bind (each a) fun _ => fresh_bind ih fun _ => fresh_ok _

theorem fresh_fold {f : β → α → Except Stop β} (each : ∀ b a, Fresh (f b a)) (l : List α) (start : β) :
    Fresh (l.foldlM f start) := by
  induction l generalizing start with
  | nil => exact fresh_ok _
  | cons a rest ih =>
    exact fresh_bind (each start a) fun b => ih b

@[simp] theorem checked_fresh (n : Int) : Fresh (checkedInt n) := by
  unfold checkedInt
  split <;> simp

variable {op : BinOp}

theorem int_binary_fresh {a b : Int64} : Fresh (intBinary op a b) := by
  cases op with
  | add | sub | mul => exact checked_fresh _
  | div =>
    unfold intBinary
    dsimp only
    split <;> simp
  | mod =>
    unfold intBinary floorMod
    dsimp only
    split
    · exact fresh_fail _
    · split
      · exact fresh_abort
      · split <;> simp

theorem float_binary_fresh {a b : Float} : Fresh (floatBinary op a b) := by
  cases op with
  | add | sub | mul => exact fresh_ok _
  | div | mod =>
    unfold floatBinary
    dsimp only
    split <;> simp

@[simp] theorem repeat_text_fresh {s : String} {n : Int64} : Fresh (repeatText s n) := by
  unfold repeatText
  split
  · exact fresh_ok _
  · split <;> simp

@[simp] theorem repeat_list_fresh {items : List Value} {n : Int64} : Fresh (repeatList items n) := by
  unfold repeatList
  split <;> simp

variable {left right : Value}

theorem join_binary_fresh : Fresh (joinBinary op left right) := by
  unfold joinBinary
  split <;> simp [unsupported]

theorem binary_fresh (op : BinOp) (left right : Value) : Fresh (binary op left right) := by
  unfold binary
  split
  · exact int_binary_fresh
  · split
    · exact float_binary_fresh
    · exact join_binary_fresh

theorem negate_fresh (v : Value) : Fresh (negateValue v) := by
  unfold negateValue
  split <;> simp

theorem contains_fresh {container item : Value} : Fresh (contains container item) := by
  unfold contains
  split <;> simp [unsupported]

theorem compare_fresh (op : CmpOp) (left right : Value) : Fresh (compareValues op left right) := by
  unfold compareValues
  split
  · exact fresh_ok _
  · exact fresh_ok _
  · exact contains_fresh
  · exact fresh_map contains_fresh
  · split <;> simp [unsupported]

theorem item_index_fresh {len : Nat} {key : Value} {typeName : String} : Fresh (itemIndex len key typeName) := by
  have resolves (i : Int) : Fresh (if i < 0 || (len : Int) ≤ i then fail (.index typeName) else .ok i.toNat) := by
    split <;> simp
  unfold itemIndex
  split
  · exact fresh_arguments
  · exact resolves _

theorem get_item_fresh (container key : Value) : Fresh (getItem container key) := by
  unfold getItem
  split
  · split <;> simp
  · exact fresh_bind item_index_fresh fun _ => fresh_ok _
  · exact fresh_bind item_index_fresh fun _ => fresh_ok _
  · exact fresh_type _

theorem set_item_fresh (container key value : Value) : Fresh (setItem container key value) := by
  unfold setItem
  split
  · exact fresh_ok _
  · exact fresh_bind item_index_fresh fun _ => fresh_ok _
  · exact fresh_type _

theorem update_fresh {f : Value → Except Stop (Value × α)} (each : ∀ v, Fresh (f v)) (keys : List Value) (v : Value) :
    Fresh (updateAt f keys v) := by
  fun_induction updateAt f keys v with
  | case1 v => exact each v
  | case2 key keys entries v found ih => exact fresh_bind ih fun _ => fresh_ok _
  | case3 key keys entries missing => exact fresh_fail _
  | case4 key keys items ih => exact fresh_bind item_index_fresh fun i => fresh_bind (ih i) fun _ => fresh_ok _
  | case5 key keys other _ _ => exact fresh_type _

theorem iterate_fresh (v : Value) : Fresh (iterate v) := by
  unfold iterate
  split <;> simp

variable {args : Args}

theorem required_fresh {name : String} {position : Nat} :
    Fresh (args.required function name position) := by
  unfold Args.required
  split <;> simp

theorem seconds_fresh (args : Args) : Fresh (Interp.sleepSeconds args) := by
  unfold Interp.sleepSeconds
  dsimp only
  split <;> simp

theorem bind_arguments_fresh (f : Function) (args : Args) : Fresh (Interp.bindArguments f args) := by
  unfold Interp.bindArguments
  split
  · exact fresh_arguments
  · refine fresh_bind (fresh_fold (fun frame e => ?_) _ _) fun frame => ?_
    · split <;> simp
    · split <;> simp

namespace Builtin

theorem length_fresh (v : Value) : Fresh (length v) := by
  unfold length
  split <;> simp

theorem to_int_fresh {v : Value} : Fresh (toInt v) := by
  unfold toInt
  split
  · exact fresh_ok _
  · exact fresh_ok _
  · split <;> simp
  · split <;> simp
  · exact fresh_arguments

theorem to_float_fresh {v : Value} : Fresh (toFloat v) := by
  unfold toFloat
  split
  · split <;> simp
  · split <;> simp

theorem range_of_fresh {first last step : Int} : Fresh (rangeOf first last step) := by
  unfold rangeOf
  split
  · exact fresh_fail _
  · dsimp only
    split <;> simp

theorem range_argument_fresh (v : Value) : Fresh (rangeArgument v) := by
  unfold rangeArgument
  split <;> simp

theorem range_fresh (args : Args) : Fresh (range args) := by
  refine fresh_bind (fresh_map_all range_argument_fresh) fun bounds => ?_
  split <;> first | exact range_of_fresh | exact fresh_arguments

theorem best_fresh (want : Ordering) (best : Value) (values : List Value) : Fresh (bestOf want best values) := by
  induction values generalizing best with
  | nil => exact fresh_ok _
  | cons v rest ih =>
    unfold bestOf
    split
    · exact ih _
    · exact fresh_type _

theorem extremum_fresh {name : String} {want : Ordering} (args : Args) : Fresh (extremum name want args) := by
  unfold extremum
  split
  · refine fresh_bind (iterate_fresh _) fun items => ?_
    cases items with
    | nil => exact fresh_fail _
    | cons first rest => exact best_fresh _ _ _
  · cases args.positional with
    | nil => exact fresh_fail _
    | cons first rest => exact best_fresh _ _ _

theorem absolute_fresh (v : Value) : Fresh (absolute v) := by
  unfold absolute
  split
  · split <;> simp
  · exact fresh_ok _
  · exact fresh_arguments

theorem round_fresh (args : Args) : Fresh (round args) := by
  refine fresh_bind required_fresh fun v => ?_
  split
  · exact fresh_arguments
  · split <;> simp

theorem order_fresh {condition : String} {op : CmpOp} :
    Fresh (conditionOrder condition op left right) := by
  unfold conditionOrder
  dsimp only
  split <;> simp

theorem condition_fresh {condition : String} :
    Fresh (conditionHolds left condition right) := by
  unfold conditionHolds
  split <;> first | exact fresh_ok _ | exact order_fresh

theorem coerced_fresh {expected : String} {read : Value → Option Value} (args : Args) :
    Fresh (coerced function expected read args) := by
  refine fresh_bind required_fresh fun label => fresh_bind required_fresh fun value => ?_
  split <;> simp

theorem call_fresh (name : String) (args : Args) : Fresh (call name args) := by
  unfold call
  split
  · exact fresh_ok _
  · exact fresh_map to_int_fresh
  · exact fresh_map to_float_fresh
  · exact fresh_ok _
  · exact fresh_bind required_fresh fun v => length_fresh v
  · split
    · exact fresh_map (iterate_fresh _)
    · exact fresh_ok _
  · split <;> simp
  · exact range_fresh args
  · exact fresh_bind required_fresh fun v => fresh_bind (iterate_fresh v) fun items => fresh_ok _
  · refine fresh_bind required_fresh fun v => ?_
    split <;> simp
  · exact fresh_bind required_fresh fun v => absolute_fresh v
  · exact extremum_fresh args
  · exact extremum_fresh args
  · exact round_fresh args
  · exact fresh_bind required_fresh fun v => fresh_bind required_fresh fun expected => fresh_ok _
  · exact fresh_bind condition_fresh fun truth => fresh_ok _
  · exact coerced_fresh args
  · exact coerced_fresh args
  · exact coerced_fresh args
  · exact fresh_ok _
  · exact fresh_bind required_fresh fun id => fresh_ok _
  · exact fresh_bind required_fresh fun id => fresh_ok _
  · exact fresh_fail _

end Builtin

namespace Method

variable {args : Args} {method : String}

theorem argument_fresh {position : Nat} {what : String} : Fresh (argument args position method what) := by
  unfold argument
  split <;> simp

theorem call_map_fresh {entries : Dict Value} : Fresh (callMap entries method args) := by
  unfold callMap
  split <;> try exact fresh_ok _
  · exact fresh_bind argument_fresh fun key => fresh_ok _
  · refine fresh_bind argument_fresh fun key => ?_
    split <;> simp
  · refine fresh_bind argument_fresh fun key => ?_
    split <;> simp
  · exact fresh_fail _

theorem call_list_fresh {items : List Value} : Fresh (callList items method args) := by
  unfold callList
  split
  · exact fresh_bind argument_fresh fun v => fresh_ok _
  · exact fresh_bind argument_fresh fun v => fresh_bind (iterate_fresh v) fun more => fresh_ok _
  · split
    · exact fresh_arguments
    · exact fresh_bind argument_fresh fun v => fresh_ok _
  · split
    · exact fresh_fail _
    · split
      · exact fresh_bind item_index_fresh fun i => fresh_ok _
      · exact fresh_ok _
  · refine fresh_bind argument_fresh fun needle => ?_
    split <;> simp
  · exact fresh_bind argument_fresh fun needle => fresh_ok _
  · exact fresh_ok _
  · exact fresh_fail _

theorem call_text_fresh {text : String} : Fresh (callText text method args) := by
  unfold callText
  dsimp only
  split <;> try exact fresh_ok _
  · split <;> exact fresh_ok _
  · split
    · exact fresh_bind (iterate_fresh _) fun items => fresh_ok _
    · exact fresh_ok _
  · exact fresh_fail _

theorem call_fresh (receiver : Value) (method : String) (args : Args) : Fresh (call receiver method args) := by
  unfold call
  split
  · exact call_map_fresh
  · exact call_list_fresh
  · exact fresh_map call_text_fresh
  · exact fresh_fail _

end Method

end Flowstep.Script
