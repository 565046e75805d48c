import Cooling.Action.NetIncrease
import Cooling.Proofs.Logged

/-!
# What runs ask of a zone

A run reads the increase that earlier runs have left and feeds it back as part of its own
request.  What saves the order of runs from mattering is that a run only ever takes maxima:
it asks for the larger of the zone's increase and of the rule's own **demand** on the group
(`value_run`), and the demand depends on the rule, the group and the known values alone.

* `demand_le_iff`: the demand is the least bound of what the members ask for;
* `increase_runAll`: a sequence of runs leaves the largest of the increase before it and of
  the demands in it;
* `runAll_requests`: what a sequence of runs asks for, run by run, and what of it is left
  when the runs are put in another order or are made twice.
-/

namespace Cooling

/-! ## 1. The largest of several words -/

instance lawfulOrderSupUInt64 : Std.LawfulOrderSup UInt64 where
  max_le_iff a b c := by
    simp only [UInt64.le_iff_toNat_le, max]
    split <;> omega

/-- What the largest word is at most, all of them are. -/
theorem foldl_max_le_iff {bound : UInt64} : ∀ {xs : List UInt64} {first : UInt64},
    xs.foldl max first ≤ bound ↔ first ≤ bound ∧ ∀ x ∈ xs, x ≤ bound
  | [], first => by simp
  | x :: xs, first => by
    rw [List.foldl_cons, foldl_max_le_iff, Std.max_le_iff, List.forall_mem_cons, and_assoc]

/-- Two words with the same bounds above are equal. -/
theorem eq_of_forall_le_iff {a b : UInt64} (h : ∀ bound, a ≤ bound ↔ b ≤ bound) : a = b :=
  UInt64.le_antisymm ((h b).mpr (UInt64.le_refl _)) ((h a).mp (UInt64.le_refl _))

namespace NetIncrease

/-! ## 2. One run -/

/-- What the members of a group ask for, in their order; members of which no value is known
and values that ask for nothing are left out. -/
def contributions (rule : NetIncrease) (group : Group) (source : Source) : List UInt64 :=
  group.members.filterMap fun member => (source (place group member)).bind rule.contribution

/-- The most that a member asks for, 0 if none does. -/
def demand (rule : NetIncrease) (group : Group) (source : Source) : UInt64 :=
  (rule.contributions group source).foldl max 0

theorem demand_le_iff {rule : NetIncrease} {group : Group} {source : Source} {bound : UInt64} :
    rule.demand group source ≤ bound ↔ ∀ x ∈ rule.contributions group source, x ≤ bound := by
  rw [demand, foldl_max_le_iff]
  exact and_iff_right (UInt64.le_iff_toNat_le.mpr (Nat.zero_le _))

/-- A member raises the largest increase so far by what it asks for, whatever is reported. -/
theorem value_consider (rule : NetIncrease) (zone : Zone) (group : Group) (source : Source)
    (largest : UInt64) (member : String) :
    (rule.consider zone group source largest member).value =
      ((source (place group member)).bind rule.contribution).toList.foldl max largest := by
  rw [consider]
  cases source (place group member) with
  | none => rfl
  | some value =>
    rw [Option.bind_some]
    dsimp only
    cases rule.contribution value with
    | some amount => rfl
    | none => cases value.comparable rule.state <;> rfl

theorem value_foldlM_consider (rule : NetIncrease) (zone : Zone) (group : Group)
    (source : Source) (largest : UInt64) :
    (group.members.foldlM (rule.consider zone group source) largest).value =
      (rule.contributions group source).foldl max largest := by
  rw [Logged.value_foldlM, contributions]
  simp only [value_consider]
  generalize group.members = members
  induction members generalizing largest with
  | nil => rfl
  | cons member rest ih =>
    rw [List.foldl_cons, ih, List.filterMap_cons]
    cases (source (place group member)).bind rule.contribution <;> rfl

/-- **A run makes one request**, for the larger of the zone's increase and the demand. -/
theorem value_run (rule : NetIncrease) (group : Group) (source : Source) (zone : Zone) :
    (rule.run group source zone).value =
      zone.request (max zone.increase (rule.demand group source)) := by
  rw [run, Logged.value_bind, value_foldlM_consider, Logged.value_pure]
  congr 1
  refine eq_of_forall_le_iff fun bound => ?_
  rw [foldl_max_le_iff, Std.max_le_iff, demand_le_iff]

/-- What a run asks for is what the zone's increase is afterwards. -/
theorem increase_run (rule : NetIncrease) (group : Group) (source : Source) (zone : Zone) :
    (rule.run group source zone).value.increase =
      max zone.increase (rule.demand group source) := by
  rw [value_run, Zone.increase_request]
  refine eq_of_forall_le_iff fun bound => ?_
  simp only [Std.max_le_iff, and_self_left]

/-! ## 3. Runs one after the other -/

/-- Runs rules on groups, one after the other, against one zone and with the same values
known throughout. -/
def runAll (source : Source) (zone : Zone) (runs : List (NetIncrease × Group)) : Logged Zone :=
  runs.foldlM (fun zone (rule, group) => rule.run group source zone) zone

/-- The demands of runs, in their order. -/
def demands (source : Source) (runs : List (NetIncrease × Group)) : List UInt64 :=
  runs.map fun (rule, group) => rule.demand group source

theorem value_runAll_cons (source : Source) (zone : Zone) (rule : NetIncrease) (group : Group)
    (runs : List (NetIncrease × Group)) :
    (runAll source zone ((rule, group) :: runs)).value =
      (runAll source (rule.run group source zone).value runs).value := rfl

/-- A sequence of runs leaves the largest of the increase before it and of its demands. -/
theorem increase_runAll (source : Source) : ∀ (runs : List (NetIncrease × Group)) (zone : Zone),
    (runAll source zone runs).value.increase = (demands source runs).foldl max zone.increase
  | [], _ => rfl
  | (rule, group) :: runs, zone => by
    rw [value_runAll_cons, increase_runAll source runs, increase_run]
    rfl

/-- What each of a sequence of runs asks for, from the increase before it. -/
def asked (source : Source) (increase : UInt64) : List (NetIncrease × Group) → List UInt64
  | [] => []
  | (rule, group) :: runs =>
    let amount := max increase (rule.demand group source)
    amount :: asked source amount runs

@[simp] theorem length_asked (source : Source) : ∀ (runs : List (NetIncrease × Group))
    (increase : UInt64), (asked source increase runs).length = runs.length
  | [], _ => rfl
  | _ :: runs, _ => congrArg (· + 1) (length_asked source runs _)

/-- The requests that the zone receives are those asked for, after the ones it has. -/
theorem requests_runAll (source : Source) : ∀ (runs : List (NetIncrease × Group)) (zone : Zone),
    (runAll source zone runs).value.requests =
      zone.requests ++ asked source zone.increase runs
  | [], zone => (List.append_nil _).symm
  | (rule, group) :: runs, zone => by
    rw [value_runAll_cons, requests_runAll source runs, increase_run, value_run,
      Zone.requests_request, List.append_assoc]
    rfl

/-- The first runs of a sequence ask for the first of its amounts. -/
theorem asked_take (source : Source) : ∀ (runs : List (NetIncrease × Group)) (increase : UInt64)
    (k : Nat), asked source increase (runs.take k) = (asked source increase runs).take k
  | _, _, 0 => rfl
  | [], _, _ + 1 => rfl
  | _ :: runs, _, k + 1 => congrArg (_ :: ·) (asked_take source runs _ k)

/-- **One step of a sequence.**  The run at an index asks for no less than the increase that
it finds, and leaves what it asks for as the increase. -/
theorem increase_runAll_take (source : Source) : ∀ (runs : List (NetIncrease × Group))
    (zone : Zone) (k : Nat) (amount : UInt64), (asked source zone.increase runs)[k]? = some amount →
      (runAll source zone (runs.take k)).value.increase ≤ amount ∧
        (runAll source zone (runs.take (k + 1))).value.increase = amount
  | [], _, _, _, h => by simp [asked] at h
  | (rule, group) :: runs, zone, 0, amount, h => by
    have hamount : max zone.increase (rule.demand group source) = amount := by
      simpa [asked] using h
    subst hamount
    exact ⟨Std.left_le_max, increase_run rule group source zone⟩
  | (rule, group) :: runs, zone, k + 1, amount, h => by
    rw [List.take_succ_cons, List.take_succ_cons, value_runAll_cons, value_runAll_cons]
    refine increase_runAll_take source runs _ k amount ?_
    rw [increase_run]
    exact h

/-- Nothing that is asked for is below the increase before it. -/
theorem pairwise_asked (source : Source) : ∀ (runs : List (NetIncrease × Group))
    (increase : UInt64), (increase :: asked source increase runs).Pairwise (· ≤ ·)
  | [], increase => List.pairwise_singleton _ increase
  | (rule, group) :: runs, increase => by
    have ih := pairwise_asked source runs (max increase (rule.demand group source))
    refine List.pairwise_cons.mpr ⟨?_, ih⟩
    intro x hx
    rcases List.mem_cons.mp hx with rfl | hx
    · exact Std.left_le_max
    · exact UInt64.le_trans Std.left_le_max ((List.pairwise_cons.mp ih).1 x hx)

/-- The increase that is left is the last one asked for. -/
theorem getLast_asked (source : Source) : ∀ (runs : List (NetIncrease × Group)) (zone : Zone),
    (runAll source zone runs).value.increase =
      (zone.increase :: asked source zone.increase runs).getLast (List.cons_ne_nil _ _)
  | [], _ => rfl
  | (rule, group) :: runs, zone => by
    have ih := getLast_asked source runs (rule.run group source zone).value
    simp only [increase_run] at ih
    rw [value_runAll_cons, ih]
    exact (List.getLast_cons _).symm

/-! ## 4. The order and the number of runs -/

/-- Runs in another order leave the same increase. -/
theorem increase_runAll_perm (source : Source) (zone : Zone)
    {runs other : List (NetIncrease × Group)} (h : other.Perm runs) :
    (runAll source zone other).value.increase = (runAll source zone runs).value.increase := by
  rw [increase_runAll, increase_runAll]
  refine eq_of_forall_le_iff fun bound => ?_
  rw [foldl_max_le_iff, foldl_max_le_iff]
  have hmem : ∀ x, x ∈ demands source other ↔ x ∈ demands source runs := fun _ =>
    (h.map _).mem_iff
  simp only [hmem]

/-- The same runs once more leave the increase as it is. -/
theorem increase_runAll_twice (source : Source) (zone : Zone)
    (runs : List (NetIncrease × Group)) :
    (runAll source (runAll source zone runs).value runs).value.increase =
      (runAll source zone runs).value.increase := by
  rw [increase_runAll, increase_runAll]
  refine eq_of_forall_le_iff fun bound => ?_
  simp only [foldl_max_le_iff, and_assoc, and_self]

/-- **What a sequence of runs asks of a zone.**  Each run adds one request, which is not below
the increase it finds and is the increase it leaves; so the requests never decrease and the
last one stands.  Any order of the runs ends with the same increase, and making all of them
again does not change it. -/
theorem runAll_requests (source : Source) (zone : Zone) (runs : List (NetIncrease × Group)) :
    (∃ amounts : List UInt64, amounts.length = runs.length ∧
      (∀ k, (runAll source zone (runs.take k)).value.requests =
        zone.requests ++ amounts.take k) ∧
      (∀ k amount, amounts[k]? = some amount →
        (runAll source zone (runs.take k)).value.increase ≤ amount ∧
          (runAll source zone (runs.take (k + 1))).value.increase = amount) ∧
      amounts.Pairwise (· ≤ ·) ∧
      (runAll source zone runs).value.increase =
        (zone.increase :: amounts).getLast (List.cons_ne_nil _ _)) ∧
    (∀ other, other.Perm runs →
      (runAll source zone other).value.increase = (runAll source zone runs).value.increase) ∧
    (runAll source (runAll source zone runs).value runs).value.increase =
      (runAll source zone runs).value.increase := by
  refine ⟨⟨asked source zone.increase runs, length_asked source runs _, ?_, ?_, ?_, ?_⟩, ?_, ?_⟩
  · intro k
    rw [requests_runAll, asked_take]
  · exact increase_runAll_take source runs zone
  · exact (List.pairwise_cons.mp (pairwise_asked source runs zone.increase)).2
  · exact getLast_asked source runs zone
  · exact fun other h => increase_runAll_perm source zone h
  · exact increase_runAll_twice source zone runs

end NetIncrease
end Cooling
