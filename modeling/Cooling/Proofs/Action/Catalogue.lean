import Cooling.Action.Catalogue
import Cooling.Proofs.Logged
import Cooling.Proofs.Text.Bytes

/-!
# The catalogue as a table in which the first wins

A catalogue is asked to register and to resolve, in any order.  What it answers is settled by
the registrations that it has **granted** so far, oldest first: a name that is among them is
taken for good, and resolving it uses the maker of the one entry that has it.  The table that
the catalogue keeps in order of names holds the same (`Holds`), a fact that every request
keeps (`Holds.serve`) and so every sequence of requests (`Holds.runAll`).

* `value_registerMaker`, `value_resolve` and their `log_…`: what one call comes to and writes;
* `first_wins`: the catalogue after any sequence of requests, and its answer to one more.
-/

namespace Cooling

/-- Whether a record reports an error. -/
def Log.Record.isError (r : Log.Record) : Bool := r.level == .error

namespace Catalogue

variable {catalogue : Catalogue} {name : String} {make : Maker} {config : Json}

/-! ## 1. Single calls -/

theorem value_registerMaker (catalogue : Catalogue) (name : String) (make : Maker) :
    (catalogue.registerMaker name make).run.value =
      if name = "" then .error .emptyName
      else if catalogue.contains name then .error (.alreadyRegistered name)
      else .ok ⟨catalogue.makers.insert name make⟩ := by
  rw [registerMaker]
  split
  · rfl
  · cases catalogue.contains name <;> rfl

/-- Registering reports an error exactly if the name is taken. -/
theorem countP_log_registerMaker (catalogue : Catalogue) (name : String) (make : Maker) :
    (catalogue.registerMaker name make).run.log.countP Log.Record.isError =
      if name ≠ "" ∧ catalogue.contains name then 1 else 0 := by
  rw [registerMaker]
  by_cases hname : name = ""
  · simp only [hname, ne_eq, not_true_eq_false, false_and, if_false]
    rfl
  · cases h : catalogue.contains name
    · simp only [hname, ne_eq, not_false_eq_true, true_and, if_false]
      rfl
    · simp only [hname, ne_eq, not_false_eq_true, true_and, if_false, if_true]
      rfl

theorem value_resolve (catalogue : Catalogue) (name : String) (config : Json) :
    (catalogue.resolve name config).run.value = match catalogue.makers.get? name with
      | some make => make name config
      | none => .error (.unknown name catalogue.names) := by
  rw [resolve]
  cases catalogue.makers.get? name <;> rfl

/-- The record of a name that no maker has: the name and all the names there are. -/
def notRegistered (catalogue : Catalogue) (name : String) : Log.Record :=
  ⟨.error, logTarget, "action is not registered",
    [.quoted "action" name, .plain "available_actions" (", ".intercalate catalogue.names)], none⟩

theorem log_resolve (catalogue : Catalogue) (name : String) (config : Json) :
    (catalogue.resolve name config).run.log =
      if (catalogue.makers.get? name).isSome then [] else [catalogue.notRegistered name] := by
  rw [resolve]
  cases catalogue.makers.get? name <;> rfl

theorem eq_notRegistered_of_mem_log_resolve {r : Log.Record}
    (h : r ∈ (catalogue.resolve name config).run.log) : r = catalogue.notRegistered name := by
  rw [log_resolve] at h
  split at h
  · cases h
  · exact List.mem_singleton.mp h

/-- Resolving reports an error exactly if no maker has the name. -/
theorem countP_log_resolve (catalogue : Catalogue) (name : String) (config : Json) :
    (catalogue.resolve name config).run.log.countP Log.Record.isError =
      if (catalogue.makers.get? name).isSome then 0 else 1 := by
  rw [log_resolve]
  split <;> rfl

/-- The entry of a behaviour under its own name. -/
def entryOf (behaviour : Behaviour) : String × Maker := (behaviour.name, behaviour.make)

theorem value_registerAll_cons (catalogue : Catalogue) (behaviour : Behaviour)
    (rest : List Behaviour) :
    (catalogue.registerAll (behaviour :: rest)).value =
      match (catalogue.register behaviour).run.value with
      | .error e => (catalogue, some e)
      | .ok larger => (larger.registerAll rest).value := by
  rw [registerAll, Logged.value_bind]
  cases (catalogue.register behaviour).run.value <;> rfl

/-! ## 2. Requests -/

/-- What can be asked of a catalogue. -/
inductive Request where
  | register (behaviour : Behaviour)
  | registerAs (behaviour : Behaviour) (name : String)
  | resolve (name : String) (config : Json)

/-- What a request comes to. -/
inductive Answer where
  | registered (result : Except ActionError Unit)
  | resolved (result : Except ActionError Action)

/-- The name that a request would have registered, and the maker to go with it. -/
def Request.claim? : Request → Option (String × Maker)
  | register behaviour => some (behaviour.name, behaviour.make)
  | registerAs behaviour name => some (name, behaviour.make)
  | resolve .. => none

/-- The entry that a request has registered, if the answer says so. -/
def Request.granted? (request : Request) : Answer → Option (String × Maker)
  | .registered (.ok ()) => request.claim?
  | _ => none

/-- The answer to a registration, and the catalogue to go on with: the larger one, or the one
at hand if there is none. -/
def settle (catalogue : Catalogue) (x : Attempt ActionError Catalogue) :
    Logged (Answer × Catalogue) := do
  match ← x.run with
  | .ok larger => return (.registered (.ok ()), larger)
  | .error e => return (.registered (.error e), catalogue)

/-- The answer to a request, and the catalogue to go on with. -/
def serve (catalogue : Catalogue) : Request → Logged (Answer × Catalogue)
  | .register behaviour => catalogue.settle (catalogue.register behaviour)
  | .registerAs behaviour name => catalogue.settle (catalogue.registerAs behaviour name)
  | .resolve name config => do
    return (.resolved (← (catalogue.resolve name config).run), catalogue)

/-- The answers of an empty catalogue to requests, and the catalogue that is left. -/
def serveAll (requests : List Request) : Logged (List Answer × Catalogue) :=
  Logged.runAll serve {} requests

/-- The catalogue that requests leave, starting from the empty one. -/
def after (requests : List Request) : Catalogue := (serveAll requests).value.2

/-- The entries that answers to requests say are registered, oldest first. -/
def grantedBy (requests : List Request) (answers : List Answer) : List (String × Maker) :=
  (requests.zip answers).filterMap fun (request, answer) => request.granted? answer

/-- The entries registered by requests, starting from the empty catalogue, oldest first. -/
def granted (requests : List Request) : List (String × Maker) :=
  grantedBy requests (serveAll requests).value.1

theorem settle_registerMaker (catalogue : Catalogue) (name : String) (make : Maker) :
    (catalogue.settle (catalogue.registerMaker name make)).value =
      if name = "" then (.registered (.error .emptyName), catalogue)
      else if catalogue.contains name then
        (.registered (.error (.alreadyRegistered name)), catalogue)
      else (.registered (.ok ()), ⟨catalogue.makers.insert name make⟩) := by
  rw [settle, Logged.value_bind, value_registerMaker]
  by_cases hname : name = ""
  · rw [if_pos hname, if_pos hname]
    rfl
  · rw [if_neg hname, if_neg hname]
    cases catalogue.contains name <;> rfl

/-- Both ways to register are one: they only differ in where the name comes from. -/
theorem serve_eq_settle {request : Request} (h : request.claim? = some (name, make)) :
    catalogue.serve request = catalogue.settle (catalogue.registerMaker name make) := by
  cases request with
  | register behaviour =>
    cases h
    rfl
  | registerAs behaviour name =>
    cases h
    rfl
  | resolve name config => cases h

theorem log_settle (catalogue : Catalogue) (x : Attempt ActionError Catalogue) :
    (catalogue.settle x).log = x.run.log := by
  rw [settle, Logged.log_bind]
  cases x.run.value <;> exact List.append_nil _

theorem value_serve_resolve (catalogue : Catalogue) (name : String) (config : Json) :
    (catalogue.serve (.resolve name config)).value =
      (.resolved (catalogue.resolve name config).run.value, catalogue) := rfl

theorem log_serve_resolve (catalogue : Catalogue) (name : String) (config : Json) :
    (catalogue.serve (.resolve name config)).log = (catalogue.resolve name config).run.log :=
  List.append_nil _

/-! ## 3. What a catalogue holds -/

/-- **A catalogue holds entries** if it answers every look-up as their list does, where the
first entry of a name counts.  No entry has the empty name. -/
structure Holds (catalogue : Catalogue) (entries : List (String × Maker)) : Prop where
  get?_eq : ∀ name, catalogue.makers.get? name = entries.lookup name
  named : "" ∉ entries.map (·.1)

theorem holds_empty : Holds {} [] := ⟨fun _ => rfl, nofun⟩

variable {entries : List (String × Maker)}

theorem Holds.contains_iff (h : Holds catalogue entries) :
    catalogue.contains name = true ↔ name ∈ entries.map (·.1) := by
  rw [Catalogue.contains, Table.contains, h.get?_eq, Table.isSome_lookup_iff]

theorem Holds.mem_names_iff (h : Holds catalogue entries) :
    name ∈ catalogue.names ↔ name ∈ entries.map (·.1) :=
  Table.contains_iff.symm.trans h.contains_iff

/-- An entry under a new name is held after the others. -/
theorem Holds.insert (h : Holds catalogue entries) (hname : name ≠ "")
    (hnew : name ∉ entries.map (·.1)) :
    Holds ⟨catalogue.makers.insert name make⟩ (entries ++ [(name, make)]) := by
  refine ⟨fun other => ?_, ?_⟩
  · rw [Table.get?_insert, List.lookup_append, ← h.get?_eq]
    by_cases hother : other = name
    · have hnone : catalogue.makers.get? name = none := by
        rw [h.get?_eq, ← Option.isNone_iff_eq_none, ← Option.isSome_eq_false_iff,
          ← Bool.not_eq_true, Table.isSome_lookup_iff]
        exact hnew
      rw [if_pos hother, hother, hnone]
      simp
    · rw [if_neg hother, List.lookup_cons, beq_false_of_ne hother]
      simp
  · rw [List.map_append, List.mem_append]
    rintro (hmem | hmem)
    · exact h.named hmem
    · exact hname (List.mem_singleton.mp hmem).symm

/-- A registration that succeeds adds an entry under a new name. -/
theorem Holds.of_registerMaker (h : Holds catalogue entries) {larger : Catalogue}
    (hok : (catalogue.registerMaker name make).run.value = .ok larger) :
    Holds larger (entries ++ [(name, make)]) := by
  rw [value_registerMaker] at hok
  split at hok
  · cases hok
  · rename_i hname
    split at hok
    · cases hok
    · rename_i hfree
      cases hok
      exact h.insert hname fun hmem => hfree (h.contains_iff.mpr hmem)

/-- Registering behaviours without a failure adds them all, in order. -/
theorem Holds.registerAll : ∀ {behaviours : List Behaviour} {catalogue larger : Catalogue}
    {entries : List (String × Maker)}, Holds catalogue entries →
    (catalogue.registerAll behaviours).value = (larger, none) →
    Holds larger (entries ++ behaviours.map entryOf)
  | [], _, _, entries, h, hvalue => by
    cases hvalue
    exact (List.append_nil entries).symm ▸ h
  | behaviour :: rest, catalogue, _, _, h, hvalue => by
    rw [value_registerAll_cons] at hvalue
    cases hregister : (catalogue.register behaviour).run.value with
    | error e =>
      rw [hregister] at hvalue
      cases hvalue
    | ok next =>
      rw [hregister] at hvalue
      have := registerAll (h.of_registerMaker hregister) hvalue
      rwa [List.append_assoc] at this

/-- **One request** leaves a catalogue that holds what it held and what the answer grants. -/
theorem Holds.serve (h : Holds catalogue entries) (request : Request) :
    Holds (catalogue.serve request).value.2
      (entries ++ (request.granted? (catalogue.serve request).value.1).toList) := by
  cases hclaim : request.claim? with
  | none =>
    cases request with
    | register => cases hclaim
    | registerAs => cases hclaim
    | resolve name config => exact (List.append_nil entries).symm ▸ h
  | some entry =>
    obtain ⟨name, make⟩ := entry
    rw [serve_eq_settle hclaim, settle_registerMaker]
    split
    · exact (List.append_nil entries).symm ▸ h
    · rename_i hname
      split
      · exact (List.append_nil entries).symm ▸ h
      · rename_i hfree
        rw [Request.granted?, hclaim]
        exact h.insert hname fun hmem => hfree (h.contains_iff.mpr hmem)

theorem grantedBy_cons (request : Request) (answer : Answer) (requests : List Request)
    (answers : List Answer) :
    grantedBy (request :: requests) (answer :: answers) =
      (request.granted? answer).toList ++ grantedBy requests answers := by
  cases h : request.granted? answer <;> simp [grantedBy, h]

theorem grantedBy_concat {requests : List Request} {answers : List Answer}
    (h : requests.length = answers.length) (request : Request) (answer : Answer) :
    grantedBy (requests ++ [request]) (answers ++ [answer]) =
      grantedBy requests answers ++ (request.granted? answer).toList := by
  rw [grantedBy, List.zip_append h, List.filterMap_append]
  cases hgranted : request.granted? answer <;> simp [grantedBy, hgranted]

/-- **A sequence of requests** leaves a catalogue that holds what it held and what the answers
grant. -/
theorem Holds.runAll : ∀ (requests : List Request) {catalogue : Catalogue}
    {entries : List (String × Maker)}, Holds catalogue entries →
    Holds (Logged.runAll Catalogue.serve catalogue requests).value.2
      (entries ++ grantedBy requests (Logged.runAll Catalogue.serve catalogue requests).value.1)
  | [], _, entries, h => (List.append_nil entries).symm ▸ h
  | request :: rest, _, _, h => by
    rw [Logged.value_runAll_cons, grantedBy_cons, ← List.append_assoc]
    exact runAll rest (h.serve request)

theorem holds_after (requests : List Request) : Holds (after requests) (granted requests) :=
  holds_empty.runAll requests

theorem granted_concat (requests : List Request) (request : Request) :
    granted (requests ++ [request]) = granted requests ++
      (request.granted? ((after requests).serve request).value.1).toList := by
  rw [granted, serveAll, Logged.runAll_concat]
  exact grantedBy_concat (Logged.length_runAll serve requests {}).symm _ _

/-! ## 4. The first wins -/

/-- What is listed of a catalogue are the names of entries: each once, ascending in bytes. -/
structure ListsNames (catalogue : Catalogue) (entries : List (String × Maker)) : Prop where
  ascending : catalogue.names.Pairwise fun a b => Text.bytes a < Text.bytes b
  mem_names : ∀ name, name ∈ catalogue.names ↔ name ∈ entries.map (·.1)
  size : catalogue.size = catalogue.names.length
  isEmpty : catalogue.isEmpty = catalogue.names.isEmpty
  contains : ∀ name, catalogue.contains name = catalogue.names.contains name
  available : catalogue.available = ", ".intercalate catalogue.names

theorem Holds.listsNames (h : Holds catalogue entries) : ListsNames catalogue entries where
  ascending := catalogue.makers.pairwise_keys_bytes
  mem_names _ := h.mem_names_iff
  size := (List.length_map _).symm
  isEmpty := List.isEmpty_map.symm
  contains name := by
    rw [Bool.eq_iff_iff, h.contains_iff, List.contains_iff_mem, h.mem_names_iff]
  available := rfl

/-- How a catalogue that holds entries takes a registration of a name. -/
structure Registers (catalogue : Catalogue) (entries : List (String × Maker)) (name : String)
    (outcome : Logged (Answer × Catalogue)) : Prop where
  emptyName : outcome.value.1 = .registered (.error .emptyName) ↔ name = ""
  taken : ∀ other, outcome.value.1 = .registered (.error (.alreadyRegistered other)) ↔
    other = name ∧ name ∈ entries.map (·.1)
  succeeds : outcome.value.1 = .registered (.ok ()) ↔ name ≠ "" ∧ name ∉ entries.map (·.1)
  unchanged : outcome.value.1 ≠ .registered (.ok ()) → outcome.value.2 = catalogue
  errors : outcome.log.countP Log.Record.isError = if name ∈ entries.map (·.1) then 1 else 0

theorem Holds.registers (h : Holds catalogue entries) :
    Registers catalogue entries name (catalogue.settle (catalogue.registerMaker name make)) := by
  have hvalue := settle_registerMaker catalogue name make
  have herrors := countP_log_registerMaker catalogue name make
  simp only [h.contains_iff] at hvalue herrors
  by_cases hempty : name = ""
  · subst hempty
    rw [if_pos rfl] at hvalue
    rw [if_neg fun both => both.1 rfl] at herrors
    -- the empty name is never taken, so no record goes with it
    exact ⟨by simp [hvalue], fun other => by simp [hvalue, h.named], by simp [hvalue],
      fun _ => by rw [hvalue], by rw [log_settle, herrors, if_neg h.named]⟩
  rw [if_neg hempty] at hvalue
  by_cases htaken : name ∈ entries.map (·.1)
  · rw [if_pos htaken] at hvalue
    rw [if_pos ⟨hempty, htaken⟩] at herrors
    exact ⟨by simp [hvalue, hempty], fun other => by simp [hvalue, htaken, eq_comm],
      by simp [hvalue, htaken], fun _ => by rw [hvalue], by rw [log_settle, herrors, if_pos htaken]⟩
  · rw [if_neg htaken] at hvalue
    rw [if_neg fun both => htaken both.2] at herrors
    exact ⟨by simp [hvalue, hempty], fun other => by simp [hvalue, htaken],
      by simp [hvalue, hempty, htaken], fun hne => absurd (congrArg Prod.fst hvalue) hne,
      by rw [log_settle, herrors, if_neg htaken]⟩

/-- **The first wins.**  After any sequence of requests to an empty catalogue its listings are
those of the entries granted.  One more request that is a registration fails for the empty name
and for a name granted before, which is reported, and else succeeds; one that resolves a name
uses the first entry that has it, whose own errors pass unreported, and reports an error if there
is none.  Only a registration that succeeds changes the catalogue.  A sequence of requests is
answered in this way request by request. -/
theorem first_wins (requests : List Request) :
    ListsNames (after requests) (granted requests) ∧
    ∀ request,
      (∀ name make, request.claim? = some (name, make) →
        Registers (after requests) (granted requests) name ((after requests).serve request)) ∧
      (∀ name config, request = .resolve name config →
        ((after requests).serve request).value =
          (.resolved (match (granted requests).lookup name with
            | some make => make name config
            | none => .error (.unknown name (after requests).names)), after requests) ∧
        ((after requests).serve request).log.countP Log.Record.isError =
          if name ∈ (granted requests).map (·.1) then 0 else 1) ∧
      serveAll (requests ++ [request]) =
        ⟨((serveAll requests).value.1 ++ [((after requests).serve request).value.1],
          ((after requests).serve request).value.2),
          (serveAll requests).log ++ ((after requests).serve request).log⟩ ∧
      granted (requests ++ [request]) = granted requests ++
        (request.granted? ((after requests).serve request).value.1).toList := by
  have hholds := holds_after requests
  refine ⟨hholds.listsNames, fun request => ⟨?_, ?_, ?_, granted_concat requests request⟩⟩
  · intro name make hclaim
    rw [serve_eq_settle hclaim]
    exact hholds.registers
  · rintro name config rfl
    rw [value_serve_resolve, value_resolve, log_serve_resolve, countP_log_resolve, hholds.get?_eq]
    refine ⟨rfl, ?_⟩
    simp only [Table.isSome_lookup_iff]
  · exact Logged.runAll_concat serve request requests {}

end Catalogue
end Cooling
