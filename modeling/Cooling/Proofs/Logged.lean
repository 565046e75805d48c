import Cooling.Action.Basic

/-!
# Results and records of computations that report

What a computation comes to and what it writes on the way are two separate questions.  The
lemmas here answer each by pushing `value` and `log` through the ways in which computations
are put together, so that later modules speak of plain folds and of `Except` only.

* `Logged.value_foldlM` and `Logged.log_foldlM`: the result of a loop is a fold of the results of
  its steps, and its records are theirs;
* `Logged.runAll_concat`: a machine that answers inputs one after the other, input by input;
* `Attempt.value_bind` and `Attempt.log_bind`: a sequence of two attempts comes to what the
  two come to as plain `Except`s, and its records end with the first failure;
* `Attempt.value_mapM` and `Attempt.log_mapM`: the same for a traversal, of which the items up to
  the first failure are attempted;
* `Attempt.Writes`: what may be said of every record, whatever an attempt comes to.
-/

namespace Cooling

namespace Logged

variable {α β : Type}

/-- A computation is its result and its records. -/
theorem ext {x y : Logged α} (hvalue : x.value = y.value) (hlog : x.log = y.log) : x = y := by
  cases x
  cases y
  cases hvalue
  cases hlog
  rfl

@[simp] theorem value_map (f : α → β) (x : Logged α) : (f <$> x).value = f x.value := by
  rw [map_eq_pure_bind]
  rfl

@[simp] theorem log_map (f : α → β) (x : Logged α) : (f <$> x).log = x.log := by
  rw [map_eq_pure_bind]
  exact List.append_nil _

@[simp] theorem value_within (span : Log.Span) (x : Logged α) :
    (within span x).value = x.value := rfl

@[simp] theorem log_within (span : Log.Span) (x : Logged α) :
    (within span x).log = x.log.map fun r => { r with span := r.span.or (some span) } := rfl

/-- The result of a loop is the fold of the results of its steps. -/
theorem value_foldlM (f : β → α → Logged β) : ∀ (xs : List α) (b : β),
    (xs.foldlM f b).value = xs.foldl (fun b x => (f b x).value) b
  | [], _ => rfl
  | x :: xs, b => by
    rw [List.foldlM_cons, value_bind, List.foldl_cons]
    exact value_foldlM f xs _

/-- The records of a loop whose steps do not report by what is reached are those of its steps. -/
theorem log_foldlM {f : β → α → Logged β} {records : α → List Log.Record}
    (h : ∀ b x, (f b x).log = records x) : ∀ (xs : List α) (b : β),
    (xs.foldlM f b).log = xs.flatMap records
  | [], _ => rfl
  | x :: xs, b => by
    rw [List.foldlM_cons, log_bind, h, log_foldlM h xs, List.flatMap_cons]

/-! ## Machines

A machine takes inputs one after the other.  It answers each from its state, which it may
change. -/

section Machine

variable {State Input Answer : Type} (step : State → Input → Logged (Answer × State))

/-- The answers of a machine to inputs, in order, and the state that is left. -/
def runAll (state : State) : List Input → Logged (List Answer × State)
  | [] => return ([], state)
  | input :: rest => do
    let (answer, next) ← step state input
    let (answers, last) ← runAll next rest
    return (answer :: answers, last)

theorem value_runAll_cons (state : State) (input : Input) (rest : List Input) :
    (runAll step state (input :: rest)).value =
      ((step state input).value.1 :: (runAll step (step state input).value.2 rest).value.1,
        (runAll step (step state input).value.2 rest).value.2) := rfl

/-- Each input has its answer. -/
theorem length_runAll : ∀ (inputs : List Input) (state : State),
    (runAll step state inputs).value.1.length = inputs.length
  | [], _ => rfl
  | _ :: rest, _ => congrArg (· + 1) (length_runAll rest _)

theorem log_runAll_cons (state : State) (input : Input) (rest : List Input) :
    (runAll step state (input :: rest)).log =
      (step state input).log ++ (runAll step (step state input).value.2 rest).log :=
  congrArg _ (List.append_nil _)

/-- One more input is answered from the state that the ones before it leave. -/
theorem runAll_concat (input : Input) : ∀ (inputs : List Input) (state : State),
    let before := runAll step state inputs
    let next := step before.value.2 input
    runAll step state (inputs ++ [input]) =
      ⟨(before.value.1 ++ [next.value.1], next.value.2), before.log ++ next.log⟩
  | [], state => ext rfl ((log_runAll_cons step state input []).trans (List.append_nil _))
  | head :: inputs, state => by
    have ih := runAll_concat input inputs (step state head).value.2
    have hvalue := value_runAll_cons step state head (inputs ++ [input])
    have hlog := log_runAll_cons step state head (inputs ++ [input])
    rw [ih] at hvalue hlog
    rw [← List.append_assoc, ← log_runAll_cons] at hlog
    exact ext hvalue hlog

/-- What one input preserves, a sequence of inputs does. -/
theorem runAll_preserves {P : State → Prop}
    (hstep : ∀ state input, P state → P (step state input).value.2) :
    ∀ (inputs : List Input) {state : State}, P state → P (runAll step state inputs).value.2
  | [], _, h => h
  | input :: rest, _, h => runAll_preserves hstep rest (hstep _ input h)

end Machine

end Logged

/-! ## Attempts -/

namespace Attempt

variable {ε ε' α β : Type}

@[simp] theorem value_pure (a : α) : (pure a : Attempt ε α).run.value = .ok a := rfl

@[simp] theorem log_pure (a : α) : (pure a : Attempt ε α).run.log = [] := rfl

@[simp] theorem value_lift (x : Logged α) :
    (liftM x : Attempt ε α).run.value = .ok x.value := Logged.value_map _ _

@[simp] theorem log_lift (x : Logged α) : (liftM x : Attempt ε α).run.log = x.log :=
  Logged.log_map _ _

@[simp] theorem value_liftExcept (x : Except ε α) :
    (liftM x : Attempt ε α).run.value = x := rfl

@[simp] theorem value_bind (x : Attempt ε α) (f : α → Attempt ε β) :
    (x >>= f).run.value = x.run.value >>= fun a => (f a).run.value := by
  rw [ExceptT.run_bind, Logged.value_bind]
  cases x.run.value <;> rfl

/-- The records of a second attempt are written only after a first one that succeeds. -/
@[simp] theorem log_bind (x : Attempt ε α) (f : α → Attempt ε β) :
    (x >>= f).run.log = x.run.log ++ match x.run.value with
      | .ok a => (f a).run.log
      | .error _ => [] := by
  rw [ExceptT.run_bind, Logged.log_bind]
  cases x.run.value <;> rfl

/-- The results of a traversal are those of the traversal of the results. -/
theorem value_mapM (f : α → Attempt ε β) : ∀ xs : List α,
    (xs.mapM f).run.value = xs.mapM fun x => (f x).run.value
  | [] => rfl
  | x :: xs => by
    rw [List.mapM_cons, List.mapM_cons, value_bind]
    simp only [value_bind, value_mapM f xs, value_pure]
    rfl

/-- The items of a traversal that are attempted: those up to the first that fails. -/
def attempted (f : α → Attempt ε β) : List α → List α
  | [] => []
  | x :: xs => x :: match (f x).run.value with
    | .ok _ => attempted f xs
    | .error _ => []

/-- The records of a traversal are those of the items that are attempted. -/
theorem log_mapM (f : α → Attempt ε β) : ∀ xs : List α,
    (xs.mapM f).run.log = (attempted f xs).flatMap fun x => (f x).run.log
  | [] => rfl
  | x :: xs => by
    rw [List.mapM_cons, log_bind, attempted, List.flatMap_cons]
    cases (f x).run.value with
    | error e => rfl
    | ok y =>
      simp only [log_bind, log_mapM f xs, log_pure]
      cases (xs.mapM f).run.value <;> simp

theorem mem_of_mem_attempted {f : α → Attempt ε β} {x : α} : ∀ {xs : List α},
    x ∈ attempted f xs → x ∈ xs
  | [], h => h
  | y :: ys, h => by
    rw [attempted, List.mem_cons] at h
    rcases h with rfl | h
    · exact List.mem_cons_self
    · split at h
      · exact List.mem_cons_of_mem _ (mem_of_mem_attempted h)
      · cases h

/-- All items are attempted as long as none fails. -/
theorem attempted_append {f : α → Attempt ε β} {ys : List α} : ∀ {xs : List α},
    (∀ x ∈ xs, ∃ b, (f x).run.value = .ok b) → attempted f (xs ++ ys) = xs ++ attempted f ys
  | [], _ => rfl
  | x :: xs, h => by
    obtain ⟨⟨b, hb⟩, hxs⟩ := List.forall_mem_cons.mp h
    rw [List.cons_append, attempted, hb, attempted_append hxs, List.cons_append]

/-! ## Which records an attempt may write -/

section Writes

variable {P Q : Log.Record → Prop}

/-- **Every record that an attempt writes is of a kind**, however far it gets. -/
def Writes (P : Log.Record → Prop) (x : Attempt ε α) : Prop := ∀ r ∈ x.run.log, P r

theorem Writes.imp {x : Attempt ε α} (hx : Writes P x) (h : ∀ r, P r → Q r) : Writes Q x :=
  fun r hr => h r (hx r hr)

theorem writes_pure (a : α) : Writes P (pure a : Attempt ε α) := nofun

theorem writes_throw (e : ε) : Writes P (throw e : Attempt ε α) := nofun

theorem writes_liftExcept (x : Except ε α) : Writes P (liftM x : Attempt ε α) := nofun

theorem writes_lift {x : Logged α} (h : ∀ r ∈ x.log, P r) :
    Writes P (liftM x : Attempt ε α) := by
  rwa [Writes, log_lift]

/-- Two attempts in a row write what each of them may. -/
theorem Writes.bind {x : Attempt ε α} {f : α → Attempt ε β} (hx : Writes P x)
    (hf : ∀ a, Writes P (f a)) : Writes P (x >>= f) := by
  intro r hr
  rw [log_bind, List.mem_append] at hr
  rcases hr with hr | hr
  · exact hx r hr
  · cases hvalue : x.run.value with
    | error e =>
      rw [hvalue] at hr
      cases hr
    | ok a =>
      rw [hvalue] at hr
      exact hf a r hr

/-- A traversal writes what each of its steps may. -/
theorem writes_mapM {f : α → Attempt ε β} {xs : List α} (h : ∀ x ∈ xs, Writes P (f x)) :
    Writes P (xs.mapM f) := by
  intro r hr
  rw [log_mapM, List.mem_flatMap] at hr
  obtain ⟨x, hx, hr⟩ := hr
  exact h x (mem_of_mem_attempted hx) r hr

end Writes

end Attempt
end Cooling
