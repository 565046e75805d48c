import Cooling.Proofs.Action.Registering
import Cooling.Proofs.First
import Cooling.Proofs.Property

/-!
# Configuring an increase

The configuration of an increase is an object with a `state` and a `delta`.  They are judged one
after the other, each first for being there and then for its kind, so there are four ways to
fail and the first of them counts.  Two kinds of numbers meet here: the state may be any number,
whole or not, while the delta must be written as a whole number of unsigned 64 bits.

* `ofJson?_eq_some_iff`, `unsigned?_eq_some_iff`: what the two are read as;
* `ofJson_eq_ok_iff`, `decides_ofJson`: the rule that a configuration describes, and the faults
  that decide when it describes none;
* `resolvesAsConfigured`: the action that a catalogue makes of a configuration;
* `configured_by_state_and_delta`: all of this, for every configuration and under every name.
-/

namespace Cooling

/-! ## 1. States -/

namespace Property

/-- **What a JSON value stands for** as the value of a property.  A number is whole if it is
written so and signed 64 bits hold it; any other is a double. -/
inductive StandsFor : Json → Property → Prop where
  | bool (b : Bool) : StandsFor (.bool b) (.bool b)
  | string (s : String) : StandsFor (.string s) (.string s)
  | int (n : Int64) (h) : StandsFor (.number (.whole n.toInt h)) (.int n)
  | large (n : Int) (h) (hn : 2 ^ 63 ≤ n) : StandsFor (.number (.whole n h)) (.float (.ofInt n))
  | real (x : Binary64) (h) : StandsFor (.number (.real x h)) (.float x)

/-- The JSON values that stand for nothing. -/
def HasNoKind (j : Json) : Prop :=
  j = .null ∨ (∃ items, j = .array items) ∨ ∃ members, j = .object members

variable {j : Json} {p : Property}

theorem ofJson?_eq_some_iff : ofJson? j = some p ↔ StandsFor j p := by
  constructor
  · intro h
    match j, h with
    | .bool b, h =>
      cases h
      exact .bool b
    | .string s, h =>
      cases h
      exact .string s
    | .number (.real x hx), h =>
      cases h
      exact .real x hx
    | .number (.whole n hn), h =>
      by_cases hlt : n < 2 ^ 63
      · rw [ofJson?_whole_of_lt hlt] at h
        cases h
        have hint : (Int64.ofInt n).toInt = n := Int64.toInt_ofInt_of_le (by omega) hlt
        have hstands := StandsFor.int (Int64.ofInt n) (by rwa [hint])
        simpa only [hint] using hstands
      · rw [ofJson?_whole_of_le (Int.not_lt.mp hlt)] at h
        cases h
        exact .large n hn (Int.not_lt.mp hlt)
  · intro h
    cases h with
    | bool b => rfl
    | string s => rfl
    | int n hn => rw [ofJson?_whole_of_lt n.toInt_lt, Int64.ofInt_toInt]
    | large n hn hle => rw [ofJson?_whole_of_le hle]
    | real x hx => rfl

theorem ofJson?_eq_none_iff : ofJson? j = none ↔ HasNoKind j := by
  cases j with
  | number n => cases n <;> simp [ofJson?, HasNoKind]
  | _ => simp [ofJson?, HasNoKind]

end Property

/-! ## 2. Members and deltas -/

namespace Json

/-- A JSON value that is written as a whole number and is not negative. -/
def IsUnsigned (j : Json) : Prop := ∃ n h, j = .number (.whole n h) ∧ 0 ≤ n

variable {j : Json}

/-- Only such a value is read as an unsigned number. -/
theorem isUnsigned_of_unsigned? {n : UInt64} (h : j.unsigned? = some n) : j.IsUnsigned := by
  cases j with
  | number m =>
    cases m with
    | whole m hm =>
      rw [unsigned?] at h
      split at h
      · rename_i hle
        exact ⟨m, hm, rfl, hle⟩
      · cases h
    | real => cases h
  | _ => cases h

theorem unsigned?_eq_some_iff {n : UInt64} :
    j.unsigned? = some n ↔ ∃ h, j = .number (.whole n.toNat h) := by
  constructor
  · intro h
    obtain ⟨m, hm, rfl, hle⟩ := isUnsigned_of_unsigned? h
    have hlt : m.toNat < 2 ^ 64 := by omega
    have hback : ((UInt64.ofNat m.toNat).toNat : Int) = m := by
      rw [UInt64.toNat_ofNat_of_lt' hlt, Int.toNat_of_nonneg hle]
    rw [unsigned?, if_pos hle, Option.some.injEq] at h
    subst h
    exact ⟨by rwa [hback], by simp only [hback]⟩
  · rintro ⟨h, rfl⟩
    rw [unsigned?, if_pos (Int.natCast_nonneg _), Int.toNat_natCast, UInt64.ofNat_toNat]

theorem unsigned?_eq_none_iff : j.unsigned? = none ↔ ¬ j.IsUnsigned := by
  constructor
  · rintro hnone ⟨n, h, rfl, hle⟩
    rw [unsigned?, if_pos hle] at hnone
    cases hnone
  · intro h
    refine Option.eq_none_iff_forall_ne_some.mpr fun n hn => ?_
    exact h (isUnsigned_of_unsigned? hn)

/-- Only an object has members. -/
theorem get?_eq_some_iff {key : String} {value : Json} : j.get? key = some value ↔
    ∃ members : Members, j = .object members ∧ members.get? key = some value := by
  cases j <;> simp [get?, members?]

end Json

namespace NetIncrease

/-! ## 3. Rules -/

/-- **A configuration describes a rule** that goes by a name. -/
structure DescribedBy (rule : NetIncrease) (name : String) (config : Json) : Prop where
  name : rule.name = name
  state : ∃ j, config.get? "state" = some j ∧ Property.StandsFor j rule.state
  delta : ∃ h, config.get? "delta" = some (.number (.whole rule.delta.toNat h))

/-- The rule is refused for a reason, if a condition holds. -/
def Refused (name reason : String) (condition : Prop) (e : ActionError) : Prop :=
  condition ∧ e = .rejected name reason

/-- Everything that can be wrong with a configuration, in the order in which it counts. -/
def faults (name : String) (config : Json) : List (ActionError → Prop) :=
  [Refused name "Missing required state value" (config.get? "state" = none),
    fun e => ∃ j, config.get? "state" = some j ∧
      Refused name "state must be a bool, integer, float or string" (Property.HasNoKind j) e,
    Refused name "Missing required delta value" (config.get? "delta" = none),
    fun e => ∃ j, config.get? "delta" = some j ∧
      Refused name "delta must be an unsigned integer" (¬ j.IsUnsigned) e]

/-- What is there, or the refusal where there is nothing. -/
def orRefuse {α : Type} (name reason : String) : Option α → Except ActionError α
  | some a => .ok a
  | none => .error (.rejected name reason)

section

variable {α : Type} {name reason : String} {config : Json} {rule : NetIncrease} {x : Option α}

theorem orRefuse_eq_ok_iff {a : α} : orRefuse name reason x = .ok a ↔ x = some a := by
  cases x <;> simp [orRefuse]

theorem decides_orRefuse {condition : Prop} (h : x = none ↔ condition) :
    Decides [Refused name reason condition] (orRefuse name reason x) := by
  refine .of_forall_iff fun e => ?_
  rw [Refused, ← h]
  cases x <;> simp [orRefuse, eq_comm]

/-- The reading of a rule step by step. -/
theorem ofJson_eq (name : String) (config : Json) :
    ofJson name config = do
      let j ← orRefuse name "Missing required state value" (config.get? "state")
      let state ← orRefuse name "state must be a bool, integer, float or string"
        (Property.ofJson? j)
      let j ← orRefuse name "Missing required delta value" (config.get? "delta")
      let delta ← orRefuse name "delta must be an unsigned integer" j.unsigned?
      return ⟨name, state, delta⟩ := by
  rw [ofJson]
  cases config.get? "state" with
  | none => rfl
  | some state =>
    simp only [orRefuse, bind, Except.bind]
    cases Property.ofJson? state with
    | none => rfl
    | some state' =>
      cases config.get? "delta" with
      | none => rfl
      | some delta =>
        dsimp only
        cases delta.unsigned? <;> rfl

/-- **A rule is read exactly if the configuration describes it.** -/
theorem ofJson_eq_ok_iff : ofJson name config = .ok rule ↔ rule.DescribedBy name config := by
  simp only [ofJson_eq, bind_eq_ok_iff, orRefuse_eq_ok_iff, Property.ofJson?_eq_some_iff,
    Json.unsigned?_eq_some_iff]
  constructor
  · rintro ⟨j, hj, state, hstate, _, hdelta, delta, ⟨h, rfl⟩, hrule⟩
    cases hrule
    exact ⟨rfl, ⟨j, hj, hstate⟩, h, hdelta⟩
  · rintro ⟨hname, ⟨j, hj, hstate⟩, h, hdelta⟩
    subst hname
    exact ⟨j, hj, rule.state, hstate, _, hdelta, rule.delta, ⟨h, rfl⟩, rfl⟩

/-- **The faults of a configuration decide its reading.** -/
theorem decides_ofJson (name : String) (config : Json) :
    Decides (faults name config) (ofJson name config) := by
  have hsame {key : String} {j : Json} (hj : config.get? key = some j) :
      ∀ j', config.get? key = some j' → j' = j := by
    intro j' hj'
    exact Option.some.inj (hj'.symm.trans hj)
  rw [ofJson_eq]
  refine .cons (decides_orRefuse Iff.rfl) fun j hj => ?_
  rw [orRefuse_eq_ok_iff] at hj
  refine .cons (.of_unique hj (hsame hj) (decides_orRefuse Property.ofJson?_eq_none_iff))
    fun state _ => ?_
  refine .cons (decides_orRefuse Iff.rfl) fun j hj => ?_
  rw [orRefuse_eq_ok_iff] at hj
  exact .cons (.of_unique hj (hsame hj) (decides_orRefuse Json.unsigned?_eq_none_iff))
    fun delta _ => .ok _

/-- A rule is read from objects only, and from those with a state of some kind and an unsigned
delta. -/
theorem exists_ofJson_eq_ok_iff : (∃ rule, ofJson name config = .ok rule) ↔
    ∃ members : Json.Members, config = .object members ∧
      (∃ j, members.get? "state" = some j ∧
        ((∃ b, j = .bool b) ∨ (∃ n, j = .number n) ∨ ∃ s, j = .string s)) ∧
      ∃ j, members.get? "delta" = some j ∧ j.IsUnsigned := by
  simp only [← Property.exists_ofJson?_iff, ofJson_eq, bind_eq_ok_iff, orRefuse_eq_ok_iff,
    Json.get?_eq_some_iff]
  constructor
  · rintro ⟨rule, j, ⟨members, rfl, hj⟩, state, hstate, j', ⟨_, hsame, hj'⟩, delta, hdelta, -⟩
    cases hsame
    obtain ⟨h, rfl⟩ := Json.unsigned?_eq_some_iff.mp hdelta
    exact ⟨members, rfl, ⟨j, hj, state, hstate⟩, _, hj', _, h, rfl, Int.natCast_nonneg _⟩
  · rintro ⟨members, rfl, ⟨j, hj, state, hstate⟩, j', hj', hunsigned⟩
    have hdelta : j'.unsigned? ≠ none := mt Json.unsigned?_eq_none_iff.mp (not_not_intro hunsigned)
    obtain ⟨delta, hdelta⟩ := Option.ne_none_iff_exists'.mp hdelta
    exact ⟨⟨name, state, delta⟩, j, ⟨members, rfl, hj⟩, state, hstate, j', ⟨members, rfl, hj'⟩,
      delta, hdelta, rfl⟩

/-! ## 4. Resolving -/

/-- **A catalogue resolves a name by its configuration**: to the action that has this name and
runs the rule described, and with the same error as the reading if there is none. -/
structure ResolvesAsConfigured (catalogue : Catalogue) (name : String) (config : Json) :
    Prop where
  action : ∀ action, (catalogue.resolve name config).run.value = .ok action ↔
    ∃ rule : NetIncrease, rule.DescribedBy name config ∧ action.name = name ∧ action.run = rule.run
  error : ∀ e, (catalogue.resolve name config).run.value = .error e ↔ ofJson name config = .error e

theorem toAction_eq_iff {action : Action} :
    rule.toAction = action ↔ action.name = rule.name ∧ action.run = rule.run := by
  obtain ⟨name', run'⟩ := action
  rw [toAction, Action.mk.injEq]
  exact and_congr eq_comm eq_comm

/-- A name that stands for the behaviour is resolved by its configuration. -/
theorem resolvesAsConfigured {catalogue : Catalogue}
    (h : catalogue.makers.get? name = some behaviour.make) (config : Json) :
    ResolvesAsConfigured catalogue name config := by
  have hvalue : (catalogue.resolve name config).run.value = (ofJson name config).map toAction := by
    rw [Catalogue.value_resolve, h]
    rfl
  constructor
  · intro action
    simp only [← ofJson_eq_ok_iff, hvalue]
    cases hread : ofJson name config with
    | error e => simp [Except.map]
    | ok rule =>
      have hname : rule.name = name := (ofJson_eq_ok_iff.mp hread).name
      simp [Except.map, toAction_eq_iff, hname]
  · intro e
    rw [hvalue]
    cases ofJson name config <;> simp [Except.map]

end

/-- **The state and the delta decide what is configured.**

A rule is read exactly if the configuration is an object whose state is a truth value, a number or
a string and whose delta is written as an unsigned whole number, and it has the name, what the
state stands for and the delta.  Otherwise the first fault counts, and what is no object has no
state.  No other key matters.  Under whatever name the behaviour is registered, and whatever the
catalogue is asked afterwards, the name resolves to an action of that name which runs this rule, or
to this error. -/
theorem configured_by_state_and_delta (name : String) (config : Json) :
    -- what is read
    (∀ rule, ofJson name config = .ok rule ↔ rule.DescribedBy name config) ∧
    ((∃ rule, ofJson name config = .ok rule) ↔ ∃ members : Json.Members, config = .object members ∧
      (∃ j, members.get? "state" = some j ∧
        ((∃ b, j = .bool b) ∨ (∃ n, j = .number n) ∨ ∃ s, j = .string s)) ∧
      ∃ j, members.get? "delta" = some j ∧ j.IsUnsigned) ∧
    -- what is refused
    (∀ e, ofJson name config = .error e ↔ First (fun fault e => fault e) (faults name config) e) ∧
    ((∀ members, config ≠ .object members) →
      ofJson name config = .error (.rejected name "Missing required state value")) ∧
    -- what does not matter
    (∀ config', config.get? "state" = config'.get? "state" →
      config.get? "delta" = config'.get? "delta" → ofJson name config = ofJson name config') ∧
    -- what a catalogue makes of it
    (∀ catalogue : Catalogue, catalogue.makers.get? name = some behaviour.make →
      ResolvesAsConfigured catalogue name config) ∧
    ∀ catalogue larger : Catalogue, (catalogue.registerAs behaviour name).run.value = .ok larger →
      ∀ requests, ResolvesAsConfigured
        (Logged.runAll Catalogue.serve larger requests).value.2 name config := by
  refine ⟨fun rule => ofJson_eq_ok_iff, exists_ofJson_eq_ok_iff, decides_ofJson name config,
    ?_, ?_, ?_, ?_⟩
  · intro hobject
    rw [decides_ofJson name config, faults, first_cons]
    refine .inl ⟨?_, rfl⟩
    refine Option.eq_none_iff_forall_ne_some.mpr fun j hj => ?_
    obtain ⟨members, hmembers, -⟩ := Json.get?_eq_some_iff.mp hj
    exact hobject members hmembers
  · intro config' hstate hdelta
    rw [ofJson_eq, ofJson_eq, hstate, hdelta]
  · intro catalogue h
    exact resolvesAsConfigured h config
  · intro catalogue larger h requests
    have hstays := Catalogue.get?_runAll_of_some (Catalogue.get?_registerAs h) requests
    exact resolvesAsConfigured hstays config

end NetIncrease
end Cooling
