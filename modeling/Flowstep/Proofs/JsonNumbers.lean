import Flowstep.Proofs.Scaling

/-!
The numbers of a JSON text.
-/
namespace Flowstep.Json

open Decimal (Reaches)

mutual

def finite : Json → Bool
  | .float x => x.isFinite
  | .arr items => finiteItems items
  | .obj ⟨fields⟩ => finiteFields fields
  | _ => true

def finiteItems : List Json → Bool
  | [] => true
  | j :: rest => finite j && finiteItems rest

def finiteFields : List (String × Json) → Bool
  | [] => true
  | (_, j) :: rest => finite j && finiteFields rest

end

theorem finite_items_forall {items : List Json} : finiteItems items = true ↔ ∀ j ∈ items, finite j := by
  induction items with
  | nil => simp [finiteItems]
  | cons j rest ih => rw [finiteItems, Bool.and_eq_true, ih, List.forall_mem_cons]

theorem finite_fields_forall (fields : List (String × Json)) : finiteFields fields = true ↔ ∀ e ∈ fields, finite e.2 := by
  induction fields with
  | nil => simp [finiteFields]
  | cons e rest ih => rw [finiteFields, Bool.and_eq_true, ih, List.forall_mem_cons]

theorem finite_of_fields {fields : List (String × Json)} (each : finiteFields fields) : finite (ofFields fields) := by
  have kept (entries : List (String × Json)) (m : Dict Json) (first : finiteFields m.entries)
      (each : finiteFields entries) : finiteFields (entries.foldl (fun m e => m.insert e.1 e.2) m).entries := by
    induction entries generalizing m with
    | nil => exact first
    | cons e rest ih =>
      rw [finiteFields, Bool.and_eq_true] at each
      refine ih _ ?_ each.2
      rw [finite_fields_forall] at first ⊢
      intro other member
      rcases Dict.mem_insert_entry _ _ _ _ member with rfl | old
      · exact each.1
      · exact first other old
  exact kept fields .empty rfl each

theorem scale_finite (fuel : Nat) (x y : Float) (exponent n : Int) (reach : Reaches n x.toModel.unpack) (least : -1074 ≤ n)
    (most : n + fuel < 972) (scaled : scale? fuel x exponent = some y) : y.isFinite := by
  induction fuel generalizing x exponent n with
  | zero =>
    cases scaled
    decide
  | succ fuel ih =>
    unfold scale? at scaled
    split at scaled
    · rename_i near
      obtain ⟨m, q, filled, power, above⟩ := Decimal.power_of_ten exponent.natAbs near
      dsimp only at scaled
      split at scaled
      · split at scaled
        · cases scaled
        · rename_i bounded
          cases scaled
          exact Decimal.product_number reach (by rw [power]; exact Int.le_refl q) (by simpa using bounded)
      · cases scaled
        exact Decimal.reaches_finite (Decimal.quotient_reach least (by omega) reach filled power above)
    · split at scaled
      · cases scaled
        decide
      · split at scaled
        · cases scaled
        · obtain ⟨m, q, filled, power, above⟩ := Decimal.power_of_ten 308 (by decide)
          have smaller := Decimal.quotient_reach least (by omega) reach filled power above
          exact ih _ _ (n + 1) smaller (by omega) (by omega) scaled

theorem negated_finite (x : Float) (finite : x.isFinite) : (-x).isFinite := by
  change x.toModel.unpack.isFinite = true at finite
  suffices reach : ∃ n, -1074 ≤ n ∧ n < 972 ∧ Reaches n x.toModel.unpack.neg by
    obtain ⟨n, least, most, reach⟩ := reach
    exact Decimal.reaches_finite (Decimal.pack_reach n _ least most reach)
  cases unpacked : x.toModel.unpack with
  | infinity sign => simp [unpacked, Float.Model.UnpackedFloat.isFinite] at finite
  | notANumber => simp [unpacked, Float.Model.UnpackedFloat.isFinite] at finite
  | zero sign => exact ⟨0, by decide, by decide, trivial⟩
  | finite sign m q filled =>
    obtain ⟨regular, small, _⟩ := Decimal.unpack_bits filled unpacked
    exact ⟨q, regular.least, small, Int.le_refl q⟩

theorem significand_finite {s : Significand} {negative : Bool} {written : Int} {x : Float}
    (read : s.toFloat? negative written = some x) : x.isFinite := by
  obtain ⟨y, scaled, read⟩ := Option.bind_eq_some_iff.mp read
  cases read
  have number := scale_finite 5 _ y _ 12 (Decimal.word_reach) (by decide) (by decide) scaled
  split
  · exact negated_finite y number
  · exact number

def Finite (w : Written) : Prop := ∀ j, w.value? = some j → finite j

theorem of_float_finite {x : Option Float} (number : ∀ y, x = some y → y.isFinite) : Finite (.ofFloat? x) := by
  intro j held
  cases x with
  | none => cases held
  | some y =>
    cases held
    exact number y rfl

theorem of_text_finite (s : Option String) : Finite (.ofText? s) := by
  intro j held
  cases s with
  | none => cases held
  | some s =>
    cases held
    rfl

theorem items_finite {items : List Written} (each : ∀ w ∈ items, Finite w) (values : List Json)
    (held : Written.itemValues? items = some values) : finiteItems values := by
  induction items generalizing values with
  | nil =>
    cases held
    rfl
  | cons w rest ih =>
    obtain ⟨j, first, held⟩ := Option.bind_eq_some_iff.mp held
    obtain ⟨js, others, held⟩ := Option.bind_eq_some_iff.mp held
    cases held
    rw [finiteItems, Bool.and_eq_true]
    exact ⟨each w List.mem_cons_self j first, ih (fun w member => each w (List.mem_cons_of_mem _ member)) js others⟩

theorem fields_finite {fields : List (String × Written)} (each : ∀ e ∈ fields, Finite e.2) (values : List (String × Json))
    (held : Written.fieldValues? fields = some values) : finiteFields values := by
  induction fields generalizing values with
  | nil =>
    cases held
    rfl
  | cons e rest ih =>
    obtain ⟨k, w⟩ := e
    obtain ⟨j, first, held⟩ := Option.bind_eq_some_iff.mp held
    obtain ⟨js, others, held⟩ := Option.bind_eq_some_iff.mp held
    cases held
    rw [finiteFields, Bool.and_eq_true]
    exact ⟨each (k, w) List.mem_cons_self j first, ih (fun e member => each e (List.mem_cons_of_mem _ member)) js others⟩

theorem array_finite (items : List Written) (each : ∀ w ∈ items, Finite w) : Finite (.arr items) := by
  intro j held
  obtain ⟨values, read, rfl⟩ := Option.map_eq_some_iff.mp held
  exact items_finite each values read

theorem object_finite (fields : List (String × Written)) (each : ∀ e ∈ fields, Finite e.2) : Finite (.obj fields) := by
  intro j held
  obtain ⟨values, read, rfl⟩ := Option.map_eq_some_iff.mp held
  exact finite_of_fields (fields_finite each values read)

variable {cs rest : List Char} {w : Written}

theorem number_finite {negative : Bool} (read : unsignedNumber negative cs = some (w, rest)) : Finite w := by
  unfold unsignedNumber at read
  dsimp only at read
  split at read
  · cases read
  · obtain ⟨⟨fraction, after⟩, _, read⟩ := Option.bind_eq_some_iff.mp read
    obtain ⟨⟨exponent, last⟩, _, read⟩ := Option.bind_eq_some_iff.mp read
    have double (s : Significand) (written : Int) : Finite (.ofFloat? (s.toFloat? negative written)) :=
      of_float_finite fun y read => significand_finite read
    have whole (n : Int) : Finite (.int n) := fun j held => by cases held; rfl
    split at read
    · split at read
      · cases read
        exact whole _
      · split at read
        · cases read
          exact whole _
        · cases read
          exact double _ _
    · cases read
      exact double _ _

theorem scalar_finite (read : scalar cs = some (w, rest)) : Finite w := by
  unfold scalar at read
  split at read
  · cases read
    exact fun j held => by cases held; rfl
  · cases read
    exact fun j held => by cases held; rfl
  · cases read
    exact fun j held => by cases held; rfl
  · obtain ⟨⟨text, after⟩, _, same⟩ := Option.map_eq_some_iff.mp read
    cases same
    exact of_text_finite text
  · unfold number at read
    split at read
    · exact number_finite read
    · exact number_finite read

theorem too_deep_finite {fuel : Nat} (read : tooDeep fuel cs = some (w, rest)) :
    Finite w := by
  obtain ⟨_, _, same⟩ := Option.map_eq_some_iff.mp read
  cases same
  exact fun j held => by cases held

mutual

theorem value_finite {fuel depth : Nat} {cs rest : List Char} {w : Written} (read : value fuel depth cs = some (w, rest)) :
    Finite w := by
  cases fuel with
  | zero => cases read
  | succ fuel =>
    unfold value at read
    split at read
    · split at read
      · exact too_deep_finite read
      · split at read
        · cases read
          exact array_finite [] (by simp)
        · exact elements_finite read (by simp)
    · split at read
      · exact too_deep_finite read
      · split at read
        · cases read
          exact object_finite [] (by simp)
        · exact members_finite read (by simp)
    · exact scalar_finite read

theorem elements_finite {fuel depth : Nat} {before : List Written} {cs rest : List Char} {w : Written}
    (read : elements fuel depth before cs = some (w, rest)) (each : ∀ w ∈ before, Finite w) : Finite w := by
  cases fuel with
  | zero => cases read
  | succ fuel =>
    unfold elements at read
    split at read
    · cases read
    · rename_i item after first
      have itemFinite := value_finite first
      split at read
      · exact elements_finite read (List.forall_mem_cons.mpr ⟨itemFinite, each⟩)
      · cases read
        exact array_finite _ fun w member => List.forall_mem_cons.mpr ⟨itemFinite, each⟩ w (List.mem_reverse.mp member)
      · cases read

theorem members_finite {fuel depth : Nat} {before : Option (List (String × Written))} {cs rest : List Char} {w : Written}
    (read : members fuel depth before cs = some (w, rest)) (each : ∀ fields, before = some fields → ∀ e ∈ fields, Finite e.2) :
    Finite w := by
  cases fuel with
  | zero => cases read
  | succ fuel =>
    unfold members at read
    split at read
    · cases read
    · rename_i name afterName _
      split at read
      · cases read
      · rename_i item after first
        have itemFinite := value_finite first
        have more (fields : List (String × Written))
            (held : (name.bind fun k => before.map fun fields => (k, item) :: fields) = some fields) :
            ∀ e ∈ fields, Finite e.2 := by
          obtain ⟨k, _, held⟩ := Option.bind_eq_some_iff.mp held
          obtain ⟨earlier, found, rfl⟩ := Option.map_eq_some_iff.mp held
          exact List.forall_mem_cons.mpr ⟨itemFinite, each earlier found⟩
        dsimp only at read
        split at read
        · exact members_finite read more
        · split at read
          · rename_i fields held
            cases read
            exact object_finite _ fun e member => more fields held e (List.mem_reverse.mp member)
          · cases read
            exact fun j held => by cases held
        · cases read

end

theorem parsed_finite {s : String} {j : Json} (read : parse? s = some j) : finite j := by
  obtain ⟨w, document, held⟩ := Option.bind_eq_some_iff.mp read
  unfold Written.parse? at document
  dsimp only at document
  split at document
  · rename_i found
    split at document
    · cases document
      exact value_finite found j held
    · cases document
  · cases document

end Flowstep.Json
