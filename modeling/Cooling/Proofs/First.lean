import Mathlib.Data.List.Forall2

/-!
# The first that counts

The program reports one fault at a time: of everything that is wrong it is the first in some
order that decides, and what comes after it is not looked at.  `First leadsTo xs y` says this
of a list: `y` is what the first of `xs` that leads to anything leads to.

* `mapM_eq_error_iff` and `mapM_eq_ok_iff`: a traversal fails with the first failure and
  otherwise has one result for each item;
* `mapM_eq_some_iff_eq_map`: a traversal that reads what was written item by item;
* `Decides.bind`: if a list of conditions decides an attempt and another one what is done with
  its result, then the two together decide the sequence.
-/

namespace Cooling

variable {α β γ ε ε' : Type}

/-! ## 1. The first of a list -/

/-- **`e` is what the first of `xs` that leads to anything leads to.** -/
def First (leadsTo : α → ε → Prop) (xs : List α) (e : ε) : Prop :=
  ∃ before x after, xs = before ++ x :: after ∧ (∀ y ∈ before, ∀ e', ¬ leadsTo y e') ∧
    leadsTo x e

variable {leadsTo leadsTo' : α → ε → Prop} {x : α} {xs ys : List α} {e : ε}

theorem not_first_nil : ¬ First leadsTo [] e := by
  rintro ⟨before, x, after, h, -, -⟩
  cases before <;> cases h

theorem first_cons :
    First leadsTo (x :: xs) e ↔ leadsTo x e ∨ (∀ e', ¬ leadsTo x e') ∧ First leadsTo xs e := by
  constructor
  · rintro ⟨before, y, after, h, hbefore, hy⟩
    cases before with
    | nil =>
      cases h
      exact .inl hy
    | cons z before =>
      cases h
      exact .inr ⟨hbefore x List.mem_cons_self,
        before, y, after, rfl, fun w hw => hbefore w (List.mem_cons_of_mem _ hw), hy⟩
  · rintro (hx | ⟨hx, before, y, after, rfl, hbefore, hy⟩)
    · exact ⟨[], x, xs, rfl, nofun, hx⟩
    · exact ⟨x :: before, y, after, rfl, List.forall_mem_cons.mpr ⟨hx, hbefore⟩, hy⟩

theorem first_append : ∀ {xs : List α},
    First leadsTo (xs ++ ys) e ↔
      First leadsTo xs e ∨ (∀ x ∈ xs, ∀ e', ¬ leadsTo x e') ∧ First leadsTo ys e
  | [] => by simp [not_first_nil]
  | x :: xs => by
    rw [List.cons_append, first_cons, first_cons, first_append, List.forall_mem_cons, or_assoc,
      and_or_left, and_assoc]

/-- Some item leads to something exactly if there is a first one. -/
theorem exists_first : ∀ {xs : List α},
    (∃ e, First leadsTo xs e) ↔ ∃ x ∈ xs, ∃ e, leadsTo x e
  | [] => by simp [not_first_nil]
  | x :: xs => by
    simp only [first_cons, exists_or, exists_and_left, exists_first, List.exists_mem_cons_iff]
    by_cases hx : ∃ e, leadsTo x e
    · simp only [hx, true_or]
    · simp only [not_exists.mp hx, not_false_eq_true, implies_true, true_and]

/-- No item leads to anything exactly if there is no first one that does. -/
theorem forall_not_first_iff :
    (∀ e, ¬ First leadsTo xs e) ↔ ∀ x ∈ xs, ∀ e, ¬ leadsTo x e := by
  rw [← not_exists, exists_first]
  simp only [not_exists, not_and]

theorem first_congr (h : ∀ x ∈ xs, ∀ e, leadsTo x e ↔ leadsTo' x e) :
    First leadsTo xs e ↔ First leadsTo' xs e := by
  constructor
  · rintro ⟨before, x, after, rfl, hbefore, hx⟩
    exact ⟨before, x, after, rfl,
      fun y hy e' hy' => hbefore y hy e' ((h y (List.mem_append_left _ hy) e').mpr hy'),
      (h x (by simp) e).mp hx⟩
  · rintro ⟨before, x, after, rfl, hbefore, hx⟩
    exact ⟨before, x, after, rfl,
      fun y hy e' hy' => hbefore y hy e' ((h y (List.mem_append_left _ hy) e').mp hy'),
      (h x (by simp) e).mpr hx⟩

/-- Lists whose items lead to the same, one by one, have the same first. -/
theorem first_forall₂ : ∀ {xs ys : List α},
    List.Forall₂ (fun x y => ∀ e, leadsTo x e ↔ leadsTo y e) xs ys →
      (First leadsTo xs e ↔ First leadsTo ys e)
  | [], [], .nil => Iff.rfl
  | x :: xs, y :: ys, .cons hxy h => by
    simp only [first_cons, hxy, first_forall₂ h]

/-- What the items lead to may be given another form. -/
theorem first_image {form : ε → ε'} {e' : ε'} :
    First (fun x e' => ∃ e, leadsTo x e ∧ form e = e') xs e' ↔
      ∃ e, First leadsTo xs e ∧ form e = e' := by
  have hnone : ∀ y, (∀ e', ¬ ∃ e, leadsTo y e ∧ form e = e') ↔ ∀ e, ¬ leadsTo y e := fun y =>
    ⟨fun h e he => h _ ⟨e, he, rfl⟩, fun h _ ⟨e, he, _⟩ => h e he⟩
  simp only [First, hnone]
  constructor
  · rintro ⟨before, x, after, rfl, hbefore, e, he, rfl⟩
    exact ⟨e, ⟨before, x, after, rfl, hbefore, he⟩, rfl⟩
  · rintro ⟨e, ⟨before, x, after, rfl, hbefore, he⟩, rfl⟩
    exact ⟨before, x, after, rfl, hbefore, e, he, rfl⟩

/-- A search finds what the first item that leads to anything leads to. -/
theorem findSome?_eq_some_iff_first {f : α → Option β} {b : β} :
    xs.findSome? f = some b ↔ First (fun x b => f x = some b) xs b := by
  have hnone : ∀ x, (∀ b, ¬ f x = some b) ↔ f x = none := fun x =>
    Option.eq_none_iff_forall_ne_some.symm
  simp only [List.findSome?_eq_some_iff, First, hnone]
  constructor
  · rintro ⟨before, x, after, rfl, hx, hbefore⟩
    exact ⟨before, x, after, rfl, hbefore, hx⟩
  · rintro ⟨before, x, after, rfl, hbefore, hx⟩
    exact ⟨before, x, after, rfl, hx, hbefore⟩

/-- By index: the item at `k` leads to something, and no item before it does. -/
theorem first_iff_getElem? :
    First leadsTo xs e ↔ ∃ (k : Nat) (x : α), xs[k]? = some x ∧ leadsTo x e ∧
      ∀ i < k, ∀ y, xs[i]? = some y → ∀ e', ¬ leadsTo y e' := by
  constructor
  · rintro ⟨before, x, after, rfl, hbefore, hx⟩
    refine ⟨before.length, x, by simp, hx, fun i hi y hy => hbefore y ?_⟩
    rw [List.getElem?_append_left hi] at hy
    exact List.mem_of_getElem? hy
  · rintro ⟨k, x, hk, hx, hbefore⟩
    obtain ⟨hlt, rfl⟩ := List.getElem?_eq_some_iff.mp hk
    refine ⟨xs.take k, xs[k], xs.drop (k + 1), ?_, ?_, hx⟩
    · rw [List.getElem_cons_drop, List.take_append_drop]
    · intro y hy
      obtain ⟨i, hi, rfl⟩ := List.mem_take_iff_getElem.mp hy
      exact hbefore i (by omega) _ (List.getElem?_eq_getElem _)

/-! ## 2. Traversals -/

theorem bind_eq_ok_iff {x : Except ε α} {f : α → Except ε β} {b : β} :
    x >>= f = .ok b ↔ ∃ a, x = .ok a ∧ f a = .ok b := by
  cases x <;> simp [bind, Except.bind]

theorem bind_eq_error_iff {x : Except ε α} {f : α → Except ε β} {e : ε} :
    x >>= f = .error e ↔ x = .error e ∨ ∃ a, x = .ok a ∧ f a = .error e := by
  cases x <;> simp [bind, Except.bind]

theorem mapError_eq_ok_iff {x : Except ε α} {wrap : ε → ε'} {a : α} :
    x.mapError wrap = .ok a ↔ x = .ok a := by
  cases x <;> simp [Except.mapError]

theorem mapError_eq_error_iff {x : Except ε α} {wrap : ε → ε'} {e : ε'} :
    x.mapError wrap = .error e ↔ ∃ cause, x = .error cause ∧ wrap cause = e := by
  cases x <;> simp [Except.mapError]

/-- An attempt that never fails succeeds. -/
theorem forall_ne_error_iff {x : Except ε α} : (∀ e, ¬ x = .error e) ↔ ∃ a, x = .ok a := by
  cases x <;> simp

/-- **A traversal that succeeds** has one result for each item, in order. -/
theorem mapM_eq_ok_iff {f : α → Except ε β} : ∀ {xs : List α} {bs : List β},
    xs.mapM f = .ok bs ↔ List.Forall₂ (fun x b => f x = .ok b) xs bs
  | [], bs => by cases bs <;> simp [pure, Except.pure]
  | x :: xs, bs => by
    simp only [List.mapM_cons, bind_eq_ok_iff, mapM_eq_ok_iff, pure, Except.pure, Except.ok.injEq,
      List.forall₂_cons_left_iff]
    constructor
    · rintro ⟨b, hb, rest, hrest, rfl⟩
      exact ⟨b, rest, hb, hrest, rfl⟩
    · rintro ⟨b, rest, hb, hrest, rfl⟩
      exact ⟨b, hb, rest, hrest, rfl⟩

/-- **A traversal that fails** does so with the first failure. -/
theorem mapM_eq_error_iff {f : α → Except ε β} : ∀ {xs : List α},
    xs.mapM f = .error e ↔ First (fun x e => f x = .error e) xs e
  | [] => by simp [not_first_nil, pure, Except.pure]
  | x :: xs => by
    rw [first_cons, forall_ne_error_iff, List.mapM_cons, bind_eq_error_iff, exists_and_right.symm]
    simp only [bind_eq_error_iff, mapM_eq_error_iff, pure, Except.pure, reduceCtorEq, and_false,
      exists_false, or_false]

/-- A traversal succeeds exactly if each item does. -/
theorem exists_mapM_eq_ok_iff {f : α → Except ε β} :
    (∃ bs, xs.mapM f = .ok bs) ↔ ∀ x ∈ xs, ∃ b, f x = .ok b := by
  rw [← forall_ne_error_iff]
  simp only [mapM_eq_error_iff, forall_not_first_iff, forall_ne_error_iff]

/-- Where reading an item is the inverse of writing it, so is reading a list item by item. -/
theorem mapM_eq_some_iff_eq_map {read : α → Option β} {write : β → α}
    (hread : ∀ x b, read x = some b ↔ x = write b) : ∀ {xs : List α} {bs : List β},
    xs.mapM read = some bs ↔ xs = bs.map write
  | [], bs => by cases bs <;> simp
  | x :: xs, bs => by
    simp only [List.mapM_cons, Option.bind_eq_bind, Option.bind_eq_some_iff, Option.pure_def,
      Option.some.injEq, hread, mapM_eq_some_iff_eq_map hread]
    constructor
    · rintro ⟨b, rfl, rest, rfl, rfl⟩
      rfl
    · intro h
      cases bs with
      | nil => cases h
      | cons b rest =>
        cases h
        exact ⟨b, rfl, rest, rfl, rfl⟩

/-! ## 3. Conditions that decide an attempt -/

/-- **An attempt fails exactly if one of the conditions holds**, and then with the error that
the first of them to hold leads to. -/
def Decides (conditions : List (ε → Prop)) (x : Except ε α) : Prop :=
  ∀ e, x = .error e ↔ First (fun condition e => condition e) conditions e

namespace Decides

variable {conditions conditions' : List (ε → Prop)}

theorem ok (a : α) : Decides [] (.ok a : Except ε α) := fun e => by
  simp [not_first_nil]

/-- A condition that is the attempt's failing decides it. -/
theorem of_forall_iff {condition : ε → Prop} {x : Except ε α}
    (h : ∀ e, x = .error e ↔ condition e) : Decides [condition] x := fun e => by
  rw [h, first_cons, or_iff_left]
  exact fun hnil => not_first_nil hnil.2

theorem eq_error_iff {condition : ε → Prop} {x : Except ε α} (h : Decides [condition] x) :
    x = .error e ↔ condition e := by
  rw [h e, first_cons, or_iff_left]
  exact fun hnil => not_first_nil hnil.2

/-- An attempt succeeds exactly if no condition holds. -/
theorem forall_not_iff {x : Except ε α} (h : Decides conditions x) :
    (∀ condition ∈ conditions, ∀ e, ¬ condition e) ↔ ∃ a, x = .ok a := by
  rw [← forall_ne_error_iff, ← forall_not_first_iff]
  exact forall_congr' fun e => not_congr (h e).symm

/-- **Conditions of a sequence.**  Those of the second attempt need to decide it only for the
result that the first one has. -/
theorem bind {x : Except ε α} {f : α → Except ε β} (hx : Decides conditions x)
    (hf : ∀ a, x = .ok a → Decides conditions' (f a)) :
    Decides (conditions ++ conditions') (x >>= f) := by
  intro e
  rw [first_append, hx.forall_not_iff, bind_eq_error_iff, hx e]
  refine or_congr_right ?_
  constructor
  · rintro ⟨a, ha, he⟩
    exact ⟨⟨a, ha⟩, (hf a ha e).mp he⟩
  · rintro ⟨⟨a, ha⟩, he⟩
    exact ⟨a, ha, (hf a ha e).mpr he⟩

theorem cons {condition : ε → Prop} {x : Except ε α} {f : α → Except ε β}
    (hx : Decides [condition] x) (hf : ∀ a, x = .ok a → Decides conditions' (f a)) :
    Decides (condition :: conditions') (x >>= f) :=
  hx.bind hf

/-- The same where it takes two steps to find that the condition holds. -/
theorem cons₂ {condition : ε → Prop} {x : Except ε α} {check : α → Except ε β}
    {f : β → Except ε γ} (hx : Decides [condition] (x >>= check))
    (hf : ∀ b, x >>= check = .ok b → Decides conditions' (f b)) :
    Decides (condition :: conditions') (x >>= fun a => check a >>= f) := by
  rw [← bind_assoc]
  exact hx.cons hf

/-- Attempts that the same conditions decide are one, if the second succeeds as the first. -/
theorem eq_of_forall_ok {x y : Except ε α} (hx : Decides conditions x) (hy : Decides conditions y)
    (hok : ∀ a, x = .ok a → y = .ok a) : x = y := by
  cases h : x with
  | ok a => exact (hok a h).symm
  | error e => exact ((hy e).mpr ((hx e).mp h)).symm

/-- A condition on the one thing that has a property may be put as one on some such thing. -/
theorem of_unique {P : β → Prop} {condition : β → ε → Prop} {b : β} {x : Except ε α} (hb : P b)
    (hunique : ∀ b', P b' → b' = b) (h : Decides [condition b] x) :
    Decides [fun e => ∃ b, P b ∧ condition b e] x := by
  have hcondition : (fun e => ∃ b, P b ∧ condition b e) = condition b := by
    ext e
    constructor
    · rintro ⟨b', hb', he⟩
      rwa [hunique b' hb'] at he
    · exact fun he => ⟨b, hb, he⟩
  rwa [hcondition]

end Decides
end Cooling
