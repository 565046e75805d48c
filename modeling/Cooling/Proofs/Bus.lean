import Cooling.Proofs.Inventory.Load
import Mathlib.Data.List.Induction

/-!
# Connections and copies

A handle stands for one connection, and which one it is does not show in its address: an address
that is opened twice gives two connections.  What decides is where a handle comes from.  Each
descends, through copies of copies, from one step that opened a connection, and `DescendsFrom`
says from which without looking at any number.

The numbers under which connections are opened only serve to tell them apart.  The invariant is
that a handle has the number which was the next one when its step came (`OpenedBy`), so there is
one number for each step that opens and one step for each number.

* `DescendsFrom.exists_handle`, `exists_origin`: descent and numbers go together;
* `sameConnection?_eq_true_iff`: handles share a connection exactly if they descend from one step;
* `shared_by_descent`: what follows for addresses, for later steps and for the fans of an
  inventory.
-/

namespace Cooling.Bus.Pool

/-! ## 1. Steps -/

/-- The address that a step opens a connection to.  A copy opens none. -/
def Step.address? : Step → Option String
  | .connect address => some address
  | .system => some systemAddress
  | .default => some systemAddress
  | .copy _ => none

variable {pool later : Pool} {steps before : List Step} {s : Step} {address : String}
  {handle a b : Handle} {i j origin : Nat}

@[simp] theorem opened_connect (pool : Pool) (address : String) :
    (pool.connect address).bus.opened = pool.bus.opened + 1 := rfl

@[simp] theorem handles_connect (pool : Pool) (address : String) :
    (pool.connect address).handles = pool.handles ++ [⟨address, pool.bus.opened⟩] := rfl

theorem step_of_opens (h : s.address? = some address) : pool.step s = pool.connect address := by
  cases s <;> cases h <;> rfl

theorem step_copy (h : pool.handles[i]? = some handle) :
    pool.step (.copy i) = ⟨pool.bus, pool.handles ++ [handle]⟩ := by
  rw [step, h]
  rfl

/-- **All that a step can do**: open a connection, copy a handle, or nothing if the handle to be
copied is not there. -/
theorem step_cases (pool : Pool) (s : Step) :
    (∃ address, s.address? = some address ∧ pool.step s = pool.connect address) ∨
    (∃ i handle, s = .copy i ∧ pool.handles[i]? = some handle ∧
      pool.step s = ⟨pool.bus, pool.handles ++ [handle]⟩) ∨
    pool.step s = pool := by
  cases s with
  | connect address => exact .inl ⟨address, rfl, rfl⟩
  | system => exact .inl ⟨systemAddress, rfl, rfl⟩
  | default => exact .inl ⟨systemAddress, rfl, rfl⟩
  | copy i =>
    right
    cases h : pool.handles[i]? with
    | some handle => exact .inl ⟨i, handle, rfl, h, step_copy h⟩
    | none =>
      right
      rw [step, h]
      simp

theorem run_concat (steps : List Step) (s : Step) : run (steps ++ [s]) = (run steps).step s := by
  simp [run]

/-! ## 2. Pools only grow -/

/-- A pool has come to a later one: no connection is forgotten, and the handles are where they
were. -/
structure GrowsTo (pool later : Pool) : Prop where
  opened : pool.bus.opened ≤ later.bus.opened
  handles : pool.handles <+: later.handles

theorem GrowsTo.refl (pool : Pool) : pool.GrowsTo pool := ⟨Nat.le_refl _, List.prefix_refl _⟩

theorem GrowsTo.trans {last : Pool} (h : pool.GrowsTo later) (h' : later.GrowsTo last) :
    pool.GrowsTo last :=
  ⟨Nat.le_trans h.opened h'.opened, h.handles.trans h'.handles⟩

theorem growsTo_step (pool : Pool) (s : Step) : pool.GrowsTo (pool.step s) := by
  rcases step_cases pool s with ⟨address, -, h⟩ | ⟨i, handle, -, -, h⟩ | h
  · rw [h]
    exact ⟨Nat.le_succ _, List.prefix_append _ _⟩
  · rw [h]
    exact ⟨Nat.le_refl _, List.prefix_append _ _⟩
  · rw [h]
    exact .refl pool

theorem growsTo_foldl (more : List Step) (pool : Pool) : pool.GrowsTo (more.foldl step pool) := by
  induction more generalizing pool with
  | nil => exact .refl pool
  | cons s more ih => exact (growsTo_step pool s).trans (ih (pool.step s))

theorem growsTo_run (h : before <+: steps) : (run before).GrowsTo (run steps) := by
  obtain ⟨more, rfl⟩ := h
  rw [run, run, List.foldl_append]
  exact growsTo_foldl more _

/-- **Later steps leave a handle where it is.** -/
theorem getElem?_run_append (h : (run steps).handles[i]? = some handle) (more : List Step) :
    (run (steps ++ more)).handles[i]? = some handle := by
  obtain ⟨added, hadded⟩ := (growsTo_run (List.prefix_append steps more)).handles
  have hi : i < (run steps).handles.length := (List.getElem?_eq_some_iff.mp h).1
  rw [← hadded, List.getElem?_append_left hi, h]

/-! ## 3. Descent -/

/-- **Where handles come from.**  After the steps, the handle at an index descends from the step
at an origin: that step opened a connection and made the handle, or the handle is a copy of one
that descends from there.  A new handle stands behind all that there are. -/
inductive DescendsFrom : List Step → (origin index : Nat) → Prop where
  | opened (before : List Step) {s : Step} {address : String} (h : s.address? = some address) :
      DescendsFrom (before ++ [s]) before.length (run before).handles.length
  | copied {before : List Step} {origin index : Nat} (h : DescendsFrom before origin index) :
      DescendsFrom (before ++ [.copy index]) origin (run before).handles.length
  | kept {before : List Step} {origin index : Nat} (h : DescendsFrom before origin index)
      (s : Step) : DescendsFrom (before ++ [s]) origin index

/-- The connection of a handle was opened by the step at an origin: to the address that the step
names, and under the number that was the next one then. -/
structure OpenedBy (steps : List Step) (origin : Nat) (handle : Handle) : Prop where
  address : steps[origin]?.bind Step.address? = some handle.address
  connection : handle.connection = (run (steps.take origin)).bus.opened

namespace OpenedBy

theorem lt_length (h : OpenedBy steps origin handle) : origin < steps.length := by
  obtain ⟨s, hs, -⟩ := Option.bind_eq_some_iff.mp h.address
  exact (List.getElem?_eq_some_iff.mp hs).1

theorem append (h : OpenedBy steps origin handle) (more : List Step) :
    OpenedBy (steps ++ more) origin handle := by
  have hlt := h.lt_length
  constructor
  · rw [List.getElem?_append_left hlt, h.address]
  · rw [List.take_append_of_le_length (Nat.le_of_lt hlt), h.connection]

theorem concat (h : s.address? = some address) :
    OpenedBy (steps ++ [s]) steps.length ⟨address, (run steps).bus.opened⟩ := by
  constructor
  · rw [List.getElem?_concat_length, Option.bind_some, h]
  · rw [List.take_left]

/-- Handles of one step are one. -/
theorem unique (ha : OpenedBy steps origin a) (hb : OpenedBy steps origin b) : a = b := by
  obtain ⟨address, connection⟩ := a
  obtain ⟨address', connection'⟩ := b
  cases ha.address.symm.trans hb.address
  cases ha.connection.trans hb.connection.symm
  rfl

/-- A step takes its number away from those that come later. -/
theorem connection_lt {k : Nat} (h : OpenedBy steps origin handle) (hlt : origin < k) :
    handle.connection < (run (steps.take k)).bus.opened := by
  obtain ⟨s, hs, haddress⟩ := Option.bind_eq_some_iff.mp h.address
  have htake : steps.take (origin + 1) = steps.take origin ++ [s] := by
    rw [List.take_add_one, hs]
    rfl
  have hgrows := (growsTo_run (List.take_prefix_take_left (l := steps) hlt)).opened
  rw [htake, run_concat, step_of_opens haddress, opened_connect, ← h.connection] at hgrows
  exact hgrows

/-- **One step for each number.** -/
theorem origin_eq {k l : Nat} (ha : OpenedBy steps k a) (hb : OpenedBy steps l b)
    (h : a.connection = b.connection) : k = l := by
  rcases Nat.lt_trichotomy k l with hlt | heq | hlt
  · have := ha.connection_lt hlt
    rw [← hb.connection, h] at this
    exact absurd this (Nat.lt_irrefl _)
  · exact heq
  · have := hb.connection_lt hlt
    rw [← ha.connection, h] at this
    exact absurd this (Nat.lt_irrefl _)

end OpenedBy

/-- **A handle that descends from a step** is there and has the connection that the step
opened. -/
theorem DescendsFrom.exists_handle (h : DescendsFrom steps origin i) :
    ∃ handle, (run steps).handles[i]? = some handle ∧ OpenedBy steps origin handle := by
  induction h with
  | @opened before s address h =>
    refine ⟨_, ?_, OpenedBy.concat h⟩
    rw [run_concat, step_of_opens h, handles_connect, List.getElem?_concat_length]
  | copied _ ih =>
    obtain ⟨handle, hhandle, hopened⟩ := ih
    refine ⟨handle, ?_, hopened.append _⟩
    rw [run_concat, step_copy hhandle, List.getElem?_concat_length]
  | kept _ s ih =>
    obtain ⟨handle, hhandle, hopened⟩ := ih
    exact ⟨handle, getElem?_run_append hhandle [s], hopened.append _⟩

/-- Every handle descends from some step: the induction is on the steps from the last one back,
and the last one made the last handle or none. -/
theorem exists_descendsFrom (steps : List Step) :
    ∀ i < (run steps).handles.length, ∃ origin, DescendsFrom steps origin i := by
  induction steps using List.reverseRecOn with
  | nil => exact nofun
  | append_singleton before s ih =>
    intro i hi
    rw [run_concat] at hi
    rcases step_cases (run before) s with ⟨address, hopens, h⟩ | ⟨k, handle, rfl, hk, h⟩ | h
    · rw [h, handles_connect, List.length_append, List.length_singleton] at hi
      rcases Nat.lt_succ_iff_lt_or_eq.mp hi with hlt | rfl
      · obtain ⟨origin, horigin⟩ := ih i hlt
        exact ⟨origin, horigin.kept s⟩
      · exact ⟨before.length, .opened before hopens⟩
    · rw [h, List.length_append, List.length_singleton] at hi
      rcases Nat.lt_succ_iff_lt_or_eq.mp hi with hlt | rfl
      · obtain ⟨origin, horigin⟩ := ih i hlt
        exact ⟨origin, horigin.kept _⟩
      · obtain ⟨origin, horigin⟩ := ih k (List.getElem?_eq_some_iff.mp hk).1
        exact ⟨origin, horigin.copied⟩
    · rw [h] at hi
      obtain ⟨origin, horigin⟩ := ih i hi
      exact ⟨origin, horigin.kept s⟩

theorem DescendsFrom.openedBy (h : DescendsFrom steps origin i)
    (hi : (run steps).handles[i]? = some handle) : OpenedBy steps origin handle := by
  obtain ⟨handle', hhandle', hopened⟩ := h.exists_handle
  cases hi.symm.trans hhandle'
  exact hopened

theorem exists_origin (h : (run steps).handles[i]? = some handle) :
    ∃ origin, DescendsFrom steps origin i ∧ OpenedBy steps origin handle := by
  obtain ⟨origin, horigin⟩ := exists_descendsFrom steps i (List.getElem?_eq_some_iff.mp h).1
  exact ⟨origin, horigin, horigin.openedBy h⟩

/-- **A handle descends from one step only.** -/
theorem DescendsFrom.unique {k l : Nat} (hk : DescendsFrom steps k i)
    (hl : DescendsFrom steps l i) : k = l := by
  obtain ⟨handle, hhandle, hopened⟩ := hk.exists_handle
  exact hopened.origin_eq (hl.openedBy hhandle) rfl

/-! ## 4. Sharing a connection -/

theorem sameConnection_iff : a.sameConnection b = true ↔ a.connection = b.connection := beq_iff_eq

/-- Whether two handles of a pool share a connection, if both are there. -/
def sameConnection? (pool : Pool) (i j : Nat) : Option Bool := do
  return (← pool.handles[i]?).sameConnection (← pool.handles[j]?)

theorem sameConnection?_eq_some_iff {answer : Bool} :
    pool.sameConnection? i j = some answer ↔
      ∃ a b, pool.handles[i]? = some a ∧ pool.handles[j]? = some b ∧
        a.sameConnection b = answer := by
  simp [sameConnection?, Option.bind_eq_some_iff]

theorem sameConnection_iff_descend (ha : (run steps).handles[i]? = some a)
    (hb : (run steps).handles[j]? = some b) :
    a.sameConnection b = true ↔
      ∃ origin, DescendsFrom steps origin i ∧ DescendsFrom steps origin j := by
  rw [sameConnection_iff]
  constructor
  · intro h
    obtain ⟨k, hk, hka⟩ := exists_origin ha
    obtain ⟨l, hl, hlb⟩ := exists_origin hb
    cases hka.origin_eq hlb h
    exact ⟨k, hk, hl⟩
  · rintro ⟨origin, hi, hj⟩
    rw [(hi.openedBy ha).unique (hj.openedBy hb)]

/-- **Handles share a connection exactly if they descend from one step.** -/
theorem sameConnection?_eq_true_iff :
    (run steps).sameConnection? i j = some true ↔
      ∃ origin, DescendsFrom steps origin i ∧ DescendsFrom steps origin j := by
  rw [sameConnection?_eq_some_iff]
  constructor
  · rintro ⟨a, b, ha, hb, h⟩
    exact (sameConnection_iff_descend ha hb).mp h
  · rintro ⟨origin, hi, hj⟩
    obtain ⟨a, ha, -⟩ := hi.exists_handle
    obtain ⟨b, hb, -⟩ := hj.exists_handle
    exact ⟨a, b, ha, hb, (sameConnection_iff_descend ha hb).mpr ⟨origin, hi, hj⟩⟩

/-- Descending from one step splits the handles of a pool into families. -/
theorem equivalence_descend (steps : List Step) :
    Equivalence fun i j : Fin (run steps).handles.length =>
      ∃ origin, DescendsFrom steps origin i ∧ DescendsFrom steps origin j where
  refl i := by
    obtain ⟨origin, h⟩ := exists_descendsFrom steps i i.isLt
    exact ⟨origin, h, h⟩
  symm := by
    rintro i j ⟨origin, hi, hj⟩
    exact ⟨origin, hj, hi⟩
  trans := by
    rintro i j k ⟨origin, hi, hj⟩ ⟨origin', hj', hk⟩
    cases hj.unique hj'
    exact ⟨origin, hi, hk⟩

/-- The numbers in use are the ones that have been given out. -/
theorem connection_lt_opened (h : handle ∈ (run steps).handles) :
    handle.connection < (run steps).bus.opened := by
  obtain ⟨i, hi⟩ := List.mem_iff_getElem?.mp h
  obtain ⟨origin, -, hopened⟩ := exists_origin hi
  have hlt := hopened.connection_lt hopened.lt_length
  rwa [List.take_length] at hlt

/-- Handles that share a connection have one address, that of the step which opened it. -/
theorem address_eq_of_sameConnection (ha : a ∈ (run steps).handles) (hb : b ∈ (run steps).handles)
    (h : a.sameConnection b = true) : a.address = b.address := by
  obtain ⟨i, hi⟩ := List.mem_iff_getElem?.mp ha
  obtain ⟨j, hj⟩ := List.mem_iff_getElem?.mp hb
  obtain ⟨origin, hdi, hdj⟩ := (sameConnection_iff_descend hi hj).mp h
  rw [(hdi.openedBy hi).unique (hdj.openedBy hj)]

/-- A handle on a new connection shares it with none that is there, whatever the addresses. -/
theorem sameConnection_opened (ha : a ∈ (run steps).handles) (address : String) :
    a.sameConnection ⟨address, (run steps).bus.opened⟩ = false := by
  have hlt := connection_lt_opened ha
  refine Bool.eq_false_iff.mpr fun h => ?_
  exact absurd (sameConnection_iff.mp h) (Nat.ne_of_lt hlt)

/-- **Later steps change no answer.** -/
theorem sameConnection?_run_append {answer : Bool}
    (h : (run steps).sameConnection? i j = some answer) (more : List Step) :
    (run (steps ++ more)).sameConnection? i j = some answer := by
  obtain ⟨a, b, ha, hb, hanswer⟩ := sameConnection?_eq_some_iff.mp h
  have ha' := getElem?_run_append ha more
  have hb' := getElem?_run_append hb more
  exact sameConnection?_eq_some_iff.mpr ⟨a, b, ha', hb', hanswer⟩

/-! ## 5. The fans of an inventory -/

variable {files : Files} {dir : String} {bus : Handle} {inventory : Inventory}

/-- Copying a handle several times. -/
theorem handles_run_replicate_copy (h : (run steps).handles[i]? = some handle) (n : Nat) :
    (run (steps ++ List.replicate n (.copy i))).handles =
      (run steps).handles ++ List.replicate n handle := by
  induction n with
  | zero => simp
  | succ n ih =>
    have hi := getElem?_run_append h (List.replicate n (.copy i))
    rw [List.replicate_succ', ← List.append_assoc, run_concat, step_copy hi, ih,
      List.replicate_succ', List.append_assoc]

/-- Every fan has a copy of the handle that the inventory is loaded with. -/
theorem bus_eq_of_load (h : (Inventory.load files dir bus).run.value = .ok inventory) :
    ∀ fan ∈ inventory.fans, fan.bus = bus := by
  rw [Inventory.value_load_eq_ok_iff] at h
  exact h.1.bus_eq

/-- **Loading an inventory copies a handle** once for each fan. -/
theorem handles_run_of_load (hbus : (run steps).handles[i]? = some bus)
    (h : (Inventory.load files dir bus).run.value = .ok inventory) :
    (run (steps ++ List.replicate inventory.fans.length (.copy i))).handles =
      (run steps).handles ++ inventory.fans.map (·.bus) := by
  have hcopies : inventory.fans.map (·.bus) = List.replicate inventory.fans.length bus := by
    refine List.eq_replicate_iff.mpr ⟨List.length_map _, ?_⟩
    intro handle hhandle
    obtain ⟨fan, hfan, rfl⟩ := List.mem_map.mp hhandle
    exact bus_eq_of_load h fan hfan
  rw [hcopies, handles_run_replicate_copy hbus]

/-- **Sharing goes by descent.**  After any steps, each handle descends from one step that opened
a connection, and two handles share a connection exactly if it is the same step.  So sharing is
an equivalence.  Handles that share have one address; but a handle on a new connection shares it
with none that there were before, whatever their addresses.  Later steps change no answer.
Loading an inventory copies the given handle, once for each fan; so the fans share its connection,
and share with another handle exactly if that one belongs to its family. -/
theorem shared_by_descent (steps : List Step) :
    -- where handles come from, and what that means for sharing
    (∀ i < (run steps).handles.length, ∃ origin, DescendsFrom steps origin i ∧
      (∀ origin', DescendsFrom steps origin' i → origin' = origin) ∧
      ∃ s address, steps[origin]? = some s ∧ s.address? = some address) ∧
    (∀ i j, i < (run steps).handles.length → j < (run steps).handles.length →
      ∃ answer, (run steps).sameConnection? i j = some answer ∧
        (answer = true ↔
          ∃ origin, DescendsFrom steps origin i ∧ DescendsFrom steps origin j)) ∧
    (Equivalence fun i j : Fin (run steps).handles.length =>
      (run steps).sameConnection? i j = some true) ∧
    -- addresses
    (∀ a ∈ (run steps).handles, ∀ b ∈ (run steps).handles,
      a.sameConnection b = true → a.address = b.address) ∧
    (∀ s address, s.address? = some address →
      ∃ handle, (run (steps ++ [s])).handles = (run steps).handles ++ [handle] ∧
        handle.address = address ∧
        ∀ a ∈ (run steps).handles, a.sameConnection handle = false) ∧
    -- later steps
    (∀ more i j answer, (run steps).sameConnection? i j = some answer →
      (run (steps ++ more)).sameConnection? i j = some answer) ∧
    -- fans
    (∀ files dir i bus inventory, (run steps).handles[i]? = some bus →
      (Inventory.load files dir bus).run.value = .ok inventory →
      (run (steps ++ List.replicate inventory.fans.length (.copy i))).handles =
        (run steps).handles ++ inventory.fans.map (·.bus) ∧
      ∀ fan ∈ inventory.fans, fan.bus.sameConnection bus = true ∧
        ∀ j other, (run steps).handles[j]? = some other →
          (fan.bus.sameConnection other = true ↔
            ∃ origin, DescendsFrom steps origin i ∧ DescendsFrom steps origin j)) := by
  refine ⟨?_, ?_, ?_, ?_, ?_, ?_, ?_⟩
  · intro i hi
    obtain ⟨origin, horigin, hopened⟩ := exists_origin (List.getElem?_eq_getElem hi)
    obtain ⟨s, hs, haddress⟩ := Option.bind_eq_some_iff.mp hopened.address
    exact ⟨origin, horigin, fun origin' h => h.unique horigin, s, _, hs, haddress⟩
  · intro i j hi hj
    have ha := List.getElem?_eq_getElem hi
    have hb := List.getElem?_eq_getElem hj
    exact ⟨_, sameConnection?_eq_some_iff.mpr ⟨_, _, ha, hb, rfl⟩,
      sameConnection_iff_descend ha hb⟩
  · simp only [sameConnection?_eq_true_iff]
    exact equivalence_descend steps
  · intro a ha b hb h
    exact address_eq_of_sameConnection ha hb h
  · intro s address h
    refine ⟨⟨address, (run steps).bus.opened⟩, ?_, rfl, ?_⟩
    · rw [run_concat, step_of_opens h, handles_connect]
    · intro a ha
      exact sameConnection_opened ha address
  · intro more i j answer h
    exact sameConnection?_run_append h more
  · intro files dir i bus inventory hbus hload
    refine ⟨handles_run_of_load hbus hload, ?_⟩
    intro fan hfan
    rw [bus_eq_of_load hload fan hfan]
    refine ⟨sameConnection_iff.mpr rfl, ?_⟩
    intro j other hother
    exact sameConnection_iff_descend hbus hother

/-- An address opened twice, with a copy of the first handle in between. -/
def reopened : List Step := [.connect "unix:a", .copy 0, .connect "unix:a"]

/-- A fan that is loaded with the copy shares with the first handle and not with the last one,
though all have one address; so the copy descends from where the first one does, and from nowhere
that the last one does. -/
theorem shared_by_descent_reopened :
    (run reopened).handles[1]? = some ⟨"unix:a", 0⟩ ∧
    (Inventory.load Inventory.sampleFiles "conf" ⟨"unix:a", 0⟩).run.value =
      .ok (Inventory.sampleInventory ⟨"unix:a", 0⟩) ∧
    (∃ origin, DescendsFrom reopened origin 1 ∧ DescendsFrom reopened origin 0) ∧
    ¬ ∃ origin, DescendsFrom reopened origin 1 ∧ DescendsFrom reopened origin 2 := by
  have hload := Inventory.load_sample ⟨"unix:a", 0⟩
  obtain ⟨-, -, -, -, -, -, hfans⟩ := shared_by_descent reopened
  obtain ⟨-, hfan⟩ := hfans _ _ 1 _ _ rfl hload
  obtain ⟨-, hshares⟩ := hfan _ (List.mem_singleton_self _)
  refine ⟨rfl, hload, (hshares 0 _ rfl).mp rfl, ?_⟩
  intro h
  cases (hshares 2 _ rfl).mpr h

end Cooling.Bus.Pool
