import Flowstep.Script.Interp

/-!
Running a script with enough fuel.
-/
namespace Flowstep.Script.Interp

variable {σ α β : Type} (ctx : Context σ)

-- With enough fuel the computation ends in this way.
def Settles (p : Nat → Exec σ α) (m : Machine σ) (r : EStateM.Result Stop (Machine σ) α) : Prop :=
  ∃ enough, ∀ fuel, enough ≤ fuel → p fuel m = r

theorem settles_fixed (x : Exec σ α) (m : Machine σ) : Settles (fun _ => x) m (x m) := ⟨0, fun _ _ => rfl⟩

variable {m : Machine σ}

theorem settles_run {x : Exec σ α} {r : EStateM.Result Stop (Machine σ) α} (ran : x m = r) :
    Settles (fun _ => x) m r := ran ▸ settles_fixed x m

variable {p : Nat → Exec σ α}

theorem settles_succ {q : Nat → Exec σ α} {r : EStateM.Result Stop (Machine σ) α} (step : ∀ fuel, p (fuel + 1) = q fuel)
    (settles : Settles q m r) : Settles p m r := by
  obtain ⟨enough, ends⟩ := settles
  refine ⟨enough + 1, fun fuel above => ?_⟩
  obtain _ | fuel := fuel
  · omega
  rw [step]
  exact ends fuel (by omega)

variable {m' : Machine σ}

theorem settles_bind {q : Nat → α → Exec σ β} {a : α} {r : EStateM.Result Stop (Machine σ) β}
    (first : Settles p m (.ok a m')) (second : Settles (fun fuel => q fuel a) m' r) :
    Settles (fun fuel => p fuel >>= q fuel) m r := by
  obtain ⟨enough, ends⟩ := first
  obtain ⟨more, endsToo⟩ := second
  refine ⟨max enough more, fun fuel above => ?_⟩
  change EStateM.bind (p fuel) (q fuel) m = r
  rw [EStateM.bind, ends fuel (by omega)]
  exact endsToo fuel (by omega)

theorem settles_error {q : Nat → α → Exec σ β} {e : Stop} (first : Settles p m (.error e m')) :
    Settles (fun fuel => p fuel >>= q fuel) m (.error e m') := by
  obtain ⟨enough, ends⟩ := first
  refine ⟨enough, fun fuel above => ?_⟩
  change EStateM.bind (p fuel) (q fuel) m = _
  rw [EStateM.bind, ends fuel above]

theorem settles_lit (v : Value) (m : Machine σ) : Settles (eval ctx · (.lit v)) m (.ok v m) :=
  settles_succ (fun fuel => by rw [eval]) (settles_fixed (pure v) m)

variable {v : Value}

theorem settles_name {n : String} (bound : m.frames.lookup n = some v) :
    Settles (eval ctx · (.name n)) m (.ok v m) := by
  refine settles_succ (fun fuel => by rw [eval]) (settles_bind (settles_fixed (Exec.lookup n) m) ?_)
  rw [bound]
  exact settles_fixed (pure v) m

variable {m₁ m₂ : Machine σ}

theorem settles_items_nil (m : Machine σ) : Settles (evalItems ctx · []) m (.ok [] m) :=
  settles_succ (fun fuel => by rw [evalItems]; simp) (settles_fixed (pure []) m)

variable {e : Expr} {values : List Value}

theorem settles_items_cons {rest : List Expr} (first : Settles (eval ctx · e) m (.ok v m₁))
    (others : Settles (evalItems ctx · rest) m₁ (.ok values m₂)) :
    Settles (evalItems ctx · (e :: rest)) m (.ok (v :: values) m₂) := by
  refine settles_succ (fun fuel => by rw [evalItems]) (settles_bind first (settles_bind others ?_))
  exact settles_fixed (pure (v :: values)) m₂

theorem settles_list {items : List Expr} (all : Settles (evalItems ctx · items) m (.ok values m₁)) :
    Settles (eval ctx · (.list items)) m (.ok (.list values) m₁) :=
  settles_succ (fun fuel => by rw [eval]) (settles_bind all (settles_fixed (pure (Value.list values)) m₁))

theorem settles_keywords_nil (m : Machine σ) : Settles (evalKeywords ctx · []) m (.ok [] m) :=
  settles_succ (fun fuel => by rw [evalKeywords]; simp) (settles_fixed (pure []) m)

theorem settles_keywords_cons (name : String) {rest : List (String × Expr)} {values : List (String × Value)}
    (first : Settles (eval ctx · e) m (.ok v m₁)) (others : Settles (evalKeywords ctx · rest) m₁ (.ok values m₂)) :
    Settles (evalKeywords ctx · ((name, e) :: rest)) m (.ok ((name, v) :: values) m₂) := by
  refine settles_succ (fun fuel => by rw [evalKeywords]) (settles_bind first (settles_bind others ?_))
  exact settles_fixed (pure ((name, v) :: values)) m₂

variable {kwargs : List (String × Expr)} {args : List Expr} {keywords : List (String × Value)}

theorem settles_args {positional : List Value} (first : Settles (evalItems ctx · args) m (.ok positional m₁))
    (second : Settles (evalKeywords ctx · kwargs) m₁ (.ok keywords m₂)) :
    Settles (evalArgs ctx · args kwargs) m (.ok ⟨positional, keywords⟩ m₂) := by
  refine settles_succ (fun fuel => by rw [evalArgs]) (settles_bind first (settles_bind second ?_))
  exact settles_fixed (pure (Args.mk positional keywords)) m₂

theorem settles_one_arg (value : Settles (eval ctx · e) m (.ok v m')) :
    Settles (evalArgs ctx · [e] []) m (.ok ⟨[v], []⟩ m') :=
  settles_args ctx (settles_items_cons ctx value (settles_items_nil ctx m'))
    (settles_keywords_nil ctx m')

def Unbound (name : String) (m : Machine σ) : Prop := m.frames.lookup name = none ∧ m.functions.get? name = none

variable {name : String}

theorem unbound_runs (free : Unbound name m) : isBound name m = .ok false m := by
  obtain ⟨variable_, function⟩ := free
  change EStateM.Result.ok ((m.frames.lookup name).isSome || m.functions.contains name) m = _
  rw [variable_, Dict.contains, function]
  rfl

theorem settles_call {callee : Expr} {r : EStateM.Result Stop (Machine σ) Value}
    (called : Settles (call ctx · callee args kwargs) m r) :
    Settles (eval ctx · (.call callee args kwargs)) m r :=
  settles_succ (fun fuel => by rw [eval]) called

theorem settles_report {method : String} {level : Report.Level} {w : World σ}
    (known : Report.Level.ofMethod? method = some level) (free : Unbound "report" m)
    (value : Settles (eval ctx · e) m (.ok v m₁)) (taken : ctx.host.report level v m₁.world = .ok () w) :
    Settles (eval ctx · (.call (.attr (.name "report") method) [e] [])) m (.ok .none { m₁ with world := w }) := by
  refine settles_call ctx (settles_succ (fun fuel => by rw [call]) ?_)
  refine settles_bind (settles_run (unbound_runs free)) (settles_bind (settles_fixed (pure _) m) ?_)
  simp only [known]
  refine settles_bind (settles_one_arg ctx value) (settles_bind (settles_run (r := .ok () { m₁ with world := w }) ?_)
    (settles_fixed (pure Value.none) _))
  rw [Exec.ofHost]
  simp only [List.head?_cons, Option.getD_some, taken]

-- An operation of the host. What it fails with belongs to the line of the call.
theorem settles_operation {base : Expr} {method root : String} {path : List String}
    (named : (Expr.attr base method).dottedPath? = some (root :: path)) (free : Unbound root m) (other : root ≠ "gv")
    (service : ¬(root = "report" ∧ path.length = 1)) (given : Settles (evalKeywords ctx · kwargs) m (.ok keywords m₁)) :
    Settles (eval ctx · (.call (.attr base method) [] kwargs)) m
      (Exec.mapError Error.unwind (.ofHost (ctx.host.callAtomic
        ⟨Text.joinWith "." (root :: path), ⟨[], keywords⟩, ctx.unit, m₁.line⟩)) m₁) := by
  refine settles_call ctx (settles_succ (fun fuel => by rw [call]) ?_)
  simp only [named, Option.getD_some, List.head?_cons]
  refine settles_bind (settles_run (unbound_runs free)) (settles_bind (settles_fixed (pure _) m) ?_)
  have outside : (!false && decide (root ≠ "gv")) = true := by simpa using other
  have elsewhere : ¬(decide (some root = some "report") && decide ((root :: path).length = 2)) = true := by
    simpa using service
  simp only [outside, if_neg elsewhere]
  have arguments := settles_args ctx (settles_items_nil ctx m) given
  exact settles_bind arguments (settles_bind (settles_fixed get m₁) (settles_fixed _ m₁))

theorem settles_free_name {args : List Expr} {kwargs : List (String × Expr)} {r : EStateM.Result Stop (Machine σ) Value}
    (free : Unbound name m)
    (called : Settles (fun fuel =>
      if name = "sleep" then do
        let given ← evalArgs ctx fuel args kwargs
        let seconds ← Exec.ofExcept (sleepSeconds given)
        Exec.ofHost (ctx.host.sleep seconds)
        return Value.none
      else if name = "print" then do
        let given ← evalArgs ctx fuel args kwargs
        Exec.ofHost (ctx.host.print (Text.joinWith " " (given.positional.map Value.display)))
        return Value.none
      else if Builtin.isBuiltin name then do
        let given ← evalArgs ctx fuel args kwargs
        Exec.ofExcept (Builtin.call name given)
      else Exec.fail (.name name)) m r) :
    Settles (eval ctx · (.call (.name name) args kwargs)) m r := by
  refine settles_call ctx (settles_succ (fun fuel => by rw [call]) (settles_succ (fun fuel => by rw [callName]) ?_))
  refine settles_bind (settles_fixed (Exec.lookup name) m) ?_
  rw [free.1]
  refine settles_bind (settles_fixed get m) ?_
  rw [free.2]
  exact called

theorem settles_text_of (free : Unbound "str" m) (value : Settles (eval ctx · e) m (.ok v m₁)) :
    Settles (eval ctx · (.call (.name "str") [e] [])) m (.ok (.str v.display) m₁) := by
  refine settles_free_name ctx free ?_
  exact settles_bind (settles_one_arg ctx value) (settles_fixed _ m₁)

theorem settles_sleep {seconds : Float} {w : World σ} (free : Unbound "sleep" m)
    (value : Settles (eval ctx · e) m (.ok v m₁)) (number : v.asFloat? = some seconds)
    (taken : ctx.host.sleep seconds m₁.world = .ok () w) :
    Settles (eval ctx · (.call (.name "sleep") [e] [])) m (.ok .none { m₁ with world := w }) := by
  refine settles_free_name ctx free ?_
  have asked : sleepSeconds ⟨[v], []⟩ = .ok seconds := by
    unfold sleepSeconds
    simp only [List.head?_cons, Option.bind_some, number]
  refine settles_bind (settles_one_arg ctx value) ?_
  rw [asked]
  refine settles_bind (settles_fixed (pure seconds) m₁)
    (settles_bind (settles_run (r := .ok () { m₁ with world := w }) ?_) (settles_fixed (pure Value.none) _))
  rw [Exec.ofHost, taken]

theorem settles_entries {fields : List (String × Expr × Value)} (entries : Dict Value) (m : Machine σ)
    (values : ∀ f ∈ fields, Settles (eval ctx · f.2.1) m (.ok f.2.2 m)) :
    Settles (evalEntries ctx · (fields.map fun f => (.lit (.str f.1), f.2.1)) entries) m
      (.ok ((fields.map fun f => (f.1, f.2.2)).foldl (fun d e => d.insert e.1 e.2) entries) m) := by
  induction fields generalizing entries with
  | nil => exact settles_succ (fun fuel => by rw [List.map_nil, evalEntries]; simp) (settles_fixed (pure entries) m)
  | cons f rest ih =>
    refine settles_succ (fun fuel => by rw [List.map_cons, evalEntries]) (settles_bind (settles_lit ctx (.str f.1) m)
      (settles_bind (values f List.mem_cons_self) ?_))
    exact ih (entries.insert f.1 f.2.2) fun g member => values g (List.mem_cons_of_mem _ member)

theorem settles_map (fields : List (String × Expr × Value)) (m : Machine σ)
    (values : ∀ f ∈ fields, Settles (eval ctx · f.2.1) m (.ok f.2.2 m)) :
    Settles (eval ctx · (.dict (fields.map fun f => (.lit (.str f.1), f.2.1)))) m
      (.ok (.map (.ofList (fields.map fun f => (f.1, f.2.2)))) m) := by
  refine settles_succ (fun fuel => by rw [eval]) (settles_bind (settles_entries ctx ∅ m values) ?_)
  exact settles_fixed (pure (Value.map _)) m

variable {result : Except Error Flow}

theorem settles_observe {p : Nat → Exec σ Flow} (ends : Settles p m (Exec.ofResult result m')) :
    Settles (fun fuel => Exec.observe (p fuel)) m (.ok result m') := by
  obtain ⟨enough, same⟩ := ends
  refine ⟨enough, fun fuel above => ?_⟩
  simp only [Exec.observe, same fuel above]
  cases result <;> rfl

def locatedAt (unit : String) (line : Nat) : EStateM.Result Stop (Machine σ) α → EStateM.Result Stop (Machine σ) α
  | .error (.error e) m => .error (.error (e.locate unit line)) m
  | ends => ends

variable {r : EStateM.Result Stop (Machine σ) Flow} {line : Nat} {kind : StmtKind}

theorem settles_located (checked : checkpoint ctx line m = .ok () m₁) (runs : Settles (execKind ctx · line kind) m₁ r) :
    Settles (exec ctx · ⟨line, kind⟩) m (locatedAt ctx.unit line r) := by
  refine settles_succ (fun fuel => by rw [exec]) (settles_bind (settles_run checked) ?_)
  obtain ⟨enough, same⟩ := runs
  refine ⟨enough, fun fuel above => ?_⟩
  simp only [Exec.mapError, same fuel above]
  rfl

theorem settles_block_nil (m : Machine σ) : Settles (execBlock ctx · []) m (.ok .normal m) :=
  settles_succ (fun fuel => by rw [execBlock]; simp) (settles_fixed (pure Flow.normal) m)

variable {s : Stmt}

theorem settles_block_next {rest : List Stmt} (first : Settles (exec ctx · s) m (.ok .normal m₁))
    (others : Settles (execBlock ctx · rest) m₁ r) :
    Settles (execBlock ctx · (s :: rest)) m r :=
  settles_succ (fun fuel => by rw [execBlock]) (settles_bind first others)

theorem settles_block_error (rest : List Stmt) {e : Stop} (first : Settles (exec ctx · s) m (.error e m₁)) :
    Settles (execBlock ctx · (s :: rest)) m (.error e m₁) :=
  settles_succ (fun fuel => by rw [execBlock]) (settles_error first)

theorem settles_block_single (first : Settles (exec ctx · s) m r) : Settles (execBlock ctx · [s]) m r := by
  cases r with
  | error e m₁ => exact settles_block_error ctx [] first
  | ok flow m₁ =>
    refine settles_succ (fun fuel => by rw [execBlock]) (settles_bind first ?_)
    cases flow with
    | normal => exact settles_block_nil ctx m₁
    | _ => exact settles_fixed (pure _) m₁

theorem settles_break (line : Nat) (m : Machine σ) : Settles (execKind ctx · line .break) m (.ok .break m) :=
  settles_succ (fun fuel => by rw [execKind]) (settles_fixed (pure Flow.break) m)

theorem settles_expr (line : Nat) (value : Settles (eval ctx · e) m (.ok v m₁)) :
    Settles (execKind ctx · line (.expr e)) m (.ok .normal m₁) :=
  settles_succ (fun fuel => by rw [execKind]) (settles_bind value (settles_fixed (pure Flow.normal) m₁))

theorem settles_expr_error (line : Nat) {stop : Stop} (value : Settles (eval ctx · e) m (.error stop m₁)) :
    Settles (execKind ctx · line (.expr e)) m (.error stop m₁) :=
  settles_succ (fun fuel => by rw [execKind]) (settles_error value)

theorem settles_assign (line : Nat) {target : Target} (value : Settles (eval ctx · e) m (.ok v m₁))
    (bound : Settles (assign ctx · target v) m₁ (.ok () m₂)) :
    Settles (execKind ctx · line (.assign [target] e)) m (.ok .normal m₂) := by
  have all : Settles (assignAll ctx · [target] v) m₁ (.ok () m₂) :=
    settles_succ (fun fuel => by rw [assignAll]) bound
  exact settles_succ (fun fuel => by rw [execKind])
    (settles_bind value (settles_bind all (settles_fixed (pure Flow.normal) m₂)))

theorem settles_assign_error (line : Nat) (targets : List Target) {stop : Stop}
    (value : Settles (eval ctx · e) m (.error stop m₁)) :
    Settles (execKind ctx · line (.assign targets e)) m (.error stop m₁) :=
  settles_succ (fun fuel => by rw [execKind]) (settles_error value)

theorem settles_bind_name (n : String) (v : Value) (m : Machine σ) :
    Settles (assign ctx · (.name n) v) m (.ok () { m with frames := m.frames.bind n v }) :=
  settles_succ (fun fuel => by rw [assign]; simp) (settles_fixed (Exec.bind n v) m)

theorem settles_bind_global (key : String) (v : Value) (free : m.frames.lookup "gv" = none) :
    Settles (assign ctx · (.index (.name "gv") (.lit (.str key))) v) m
      (.ok () { m with world := { m.world with globals := m.world.globals.insert key v } }) := by
  refine settles_succ (fun fuel => by rw [assign]) (settles_bind (settles_lit ctx (.str key) m) ?_)
  have table : isGlobals "gv" m = .ok true m := by
    change EStateM.Result.ok (decide ("gv" = "gv") && (m.frames.lookup "gv").isNone) m = _
    rw [free]
    rfl
  refine settles_bind (settles_run table) ?_
  exact settles_bind (settles_fixed Exec.globals m) (settles_fixed _ m)

theorem settles_lower (line : Nat) {n : String} {a b : Int64} {m : Machine σ} (bound : m.frames.lookup n = some (.int a))
    (lowered : binary .sub (.int a) (.int b) = .ok v) :
    Settles (execKind ctx · line (.augAssign (.name n) .sub (.lit (.int b)))) m
      (.ok .normal { m with frames := m.frames.bind n v }) := by
  refine settles_succ (fun fuel => by rw [execKind]) (settles_bind (settles_name ctx bound)
    (settles_bind (settles_lit ctx (.int b) m) ?_))
  rw [lowered]
  exact settles_bind (settles_fixed (pure v) m) (settles_bind (settles_bind_name ctx n v m)
    (settles_fixed (pure Flow.normal) _))

theorem settles_raise (line : Nat) {e : Error} {others : List Error} (handled : m.handling = e :: others) :
    Settles (execKind ctx · line (.raise none)) m (.error (.error e) m) := by
  refine settles_succ (fun fuel => by rw [execKind]) (settles_bind (settles_fixed get m) ?_)
  rw [handled]
  exact settles_fixed (throw (Stop.error e)) m

variable {arm : Arm}

theorem settles_when (line : Nat) (test : Settles (eval ctx · arm.test) m (.ok v m₁)) (holds : v.truthy = true)
    (body : Settles (execBlock ctx · arm.body) m₁ r) : Settles (execKind ctx · line (.ifChain [arm] none)) m r := by
  refine settles_succ (fun fuel => by rw [execKind]) (settles_succ
    (fun fuel => by rw [execArms]; exact if_neg (by decide)) (settles_bind test ?_))
  simp only [holds]
  exact body

theorem settles_otherwise (line : Nat) {arms : List Arm} {otherwise : Option Suite}
    (test : Settles (eval ctx · arm.test) m (.ok v m₁)) (fails : v.truthy = false)
    (others : Settles (execArms ctx · false arms otherwise) m₁ r) :
    Settles (execKind ctx · line (.ifChain (arm :: arms) otherwise)) m r := by
  refine settles_succ (fun fuel => by rw [execKind]) (settles_succ
    (fun fuel => by rw [execArms]; exact if_neg (by decide)) (settles_bind test ?_))
  simp only [fails]
  exact others

theorem settles_unless (line : Nat) (test : Settles (eval ctx · arm.test) m (.ok v m₁)) (fails : v.truthy = false) :
    Settles (execKind ctx · line (.ifChain [arm] none)) m (.ok .normal m₁) :=
  settles_otherwise ctx line test fails
    (settles_succ (fun fuel => by rw [execArms]; simp) (settles_fixed (pure Flow.normal) m₁))

def Enters (first : Bool) (line : Nat) (m m₁ : Machine σ) : Prop :=
  if first then m₁ = m else checkpoint ctx line m = .ok () m₁

variable {first : Bool} {body : List Stmt}

theorem settles_round (enters : Enters ctx first line m m₁)
    (runs : Settles (fun fuel => do
      match ← execBlock ctx fuel body with
      | .break => return .normal
      | .return v => return .return v
      | _ => execWhile ctx fuel false line (.lit (.bool true)) body) m₁ r) :
    Settles (execWhile ctx · first line (.lit (.bool true)) body) m r := by
  have always : Settles (fun fuel => do
      if (← eval ctx fuel (.lit (.bool true))).truthy then
        match ← execBlock ctx fuel body with
        | .break => return .normal
        | .return v => return .return v
        | _ => execWhile ctx fuel false line (.lit (.bool true)) body
      else return .normal) m₁ r := settles_bind (settles_lit ctx (.bool true) m₁) runs
  cases first with
  | true =>
    obtain rfl : m₁ = m := enters
    exact settles_succ (fun fuel => by rw [execWhile]; exact if_neg (by decide)) always
  | false =>
    exact settles_succ (fun fuel => by rw [execWhile]; exact if_pos (by decide)) (settles_bind (settles_run enters) always)

theorem settles_while (rounds : Settles (execWhile ctx · true line (.lit (.bool true)) body) m r) :
    Settles (execKind ctx · line (.whileLoop (.lit (.bool true)) body)) m r :=
  settles_succ (fun fuel => by rw [execKind]) rounds

variable {handler : Handler}

theorem settles_try (line : Nat) (result : Except Error Flow) (passes : ∀ e, result = .error e → e.isCatchable = false)
    (runs : Settles (execBlock ctx · body) m (Exec.ofResult result m₁)) :
    Settles (execKind ctx · line (.tryBlock body (some handler) none)) m (Exec.ofResult result m₁) := by
  refine settles_succ (fun fuel => by rw [execKind]) (settles_succ (fun fuel => by rw [execTry])
    (settles_bind (settles_observe runs) ?_))
  cases result with
  | ok flow => exact settles_bind (settles_fixed (pure (Except.ok flow)) m₁) (settles_fixed _ m₁)
  | error e =>
    simp only [passes e rfl]
    exact settles_bind (settles_fixed (pure (Except.error e)) m₁) (settles_fixed _ m₁)

def handlingOf (name : String) (e : Error) (m : Machine σ) : Machine σ :=
  { m with frames := m.frames.bind name (.str e.kind.message), handling := e :: m.handling }

theorem settles_handler (line : Nat) {e : Error} {m₃ : Machine σ}
    (named : handler.name = some name) (catchable : e.isCatchable = true)
    (runs : Settles (execBlock ctx · body) m (Exec.ofResult (.error e) m₁)) (checked : checkpoint ctx handler.line m₁ = .ok () m₂)
    (handles : Settles (fun fuel => Exec.observe (execBlock ctx fuel handler.body)) (handlingOf name e m₂) (.ok result m₃)) :
    Settles (execKind ctx · line (.tryBlock body (some handler) none)) m
      (Exec.ofResult result { m₃ with handling := m₃.handling.tail }) := by
  refine settles_succ (fun fuel => by rw [execKind]) (settles_succ (fun fuel => by rw [execTry])
    (settles_bind (settles_observe runs) ?_))
  simp only [catchable, named]
  refine settles_bind (settles_run checked) (settles_bind (settles_fixed (Exec.bind name _) m₂) ?_)
  exact settles_bind (settles_fixed (modify _) _) (settles_bind handles
    (settles_bind (settles_fixed (modify _) m₃) (settles_fixed (Exec.ofResult result) _)))

end Flowstep.Script.Interp
