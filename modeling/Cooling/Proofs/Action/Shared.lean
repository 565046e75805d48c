import Cooling.Action.Shared
import Cooling.Proofs.Action.Catalogue

/-!
# The one shared catalogue

A process has no catalogue at first, and from the first `init` on it has one edition for good.
So there are only two states, and which of them a sequence of calls has led to is whether there
is an `init` in it (`state_after`).  Everything else is read off the two states.

* `value_registerAll_builtIn`: the built-in behaviours go into an empty catalogue without
  failing;
* `one_edition`: what any call answers after any other calls.
-/

namespace Cooling

/-! ## 1. The built-in catalogue -/

/-- The catalogue of the built-in behaviours. -/
def builtInCatalogue : Catalogue := (({} : Catalogue).registerAll builtIn).value.1

theorem value_registerAll_builtIn :
    (({} : Catalogue).registerAll builtIn).value = (builtInCatalogue, none) := rfl

/-- The shared catalogue is built without failing. -/
theorem value_init : (({} : Shared).init).value.1 = .ok ⟨0, builtInCatalogue⟩ := rfl

namespace Shared

/-! ## 2. Calls -/

/-- What a process can ask of its shared catalogue. -/
inductive Call where
  | init
  | get
  | resolve (name : String) (config : Json)

/-- What a call comes to. -/
inductive Answer where
  | edition (result : Except ActionError Edition)
  | action (result : Except ActionError Action)

/-- The answer to a call, and the state to go on with. -/
def serve (shared : Shared) : Call → Logged (Answer × Shared)
  | .init => do
    let (result, next) ← shared.init
    return (.edition result, next)
  | .get => return (.edition shared.get, shared)
  | .resolve name config => do return (.action (← (shared.resolve name config).run), shared)

/-- The answers to calls in a process that starts without a catalogue, and the state that is
left. -/
def serveAll (calls : List Call) : Logged (List Answer × Shared) := Logged.runAll serve {} calls

/-- The state that calls leave. -/
def after (calls : List Call) : Shared := (serveAll calls).value.2

/-- The edition that the first `init` builds. -/
def firstEdition : Edition := ⟨0, builtInCatalogue⟩

/-- The state with that edition in use, and no other ever built. -/
def published : Shared := ⟨1, some firstEdition⟩

/-! ## 3. The two states -/

/-- A call that is no `init` changes nothing. -/
theorem serve_eq_self (shared : Shared) {call : Call} (h : call ≠ .init) :
    (shared.serve call).value.2 = shared := by
  cases call with
  | init => exact absurd rfl h
  | get => rfl
  | resolve name config => rfl

theorem serve_init : (serve {} .init).value = (.edition (.ok firstEdition), published) := rfl

theorem serve_published (call : Call) : (published.serve call).value.2 = published := by
  cases call <;> rfl

/-- **The state after calls** is settled by whether there was an `init`. -/
theorem state_after : ∀ calls : List Call,
    (.init ∉ calls → after calls = {}) ∧ (.init ∈ calls → after calls = published)
  | [] => ⟨fun _ => rfl, nofun⟩
  | call :: rest => by
    have hstep : after (call :: rest) =
        (Logged.runAll serve (serve {} call).value.2 rest).value.2 := rfl
    by_cases hcall : call = .init
    · subst hcall
      have hstay := Logged.runAll_preserves serve (P := (· = published))
        (fun _ call h => h ▸ serve_published call) rest rfl
      rw [hstep, serve_init, hstay]
      exact ⟨fun h => absurd List.mem_cons_self h, fun _ => rfl⟩
    · rw [hstep, serve_eq_self _ hcall, List.mem_cons, or_iff_right (Ne.symm hcall)]
      exact state_after rest

/-! ## 4. What is answered -/

/-- The built-in catalogue lists the built-in behaviours, each under its own name. -/
theorem listsNames_builtInCatalogue :
    Catalogue.ListsNames builtInCatalogue (builtIn.map Catalogue.entryOf) :=
  (Catalogue.holds_empty.registerAll value_registerAll_builtIn).listsNames

/-- Names are resolved in the edition in use. -/
theorem serve_published_resolve (name : String) (config : Json) :
    (published.serve (.resolve name config)).value.1 =
      .action (builtInCatalogue.resolve name config).run.value := rfl

/-- **There is one edition, the first.**  It has the built-in behaviours, each under its own
name, and these are one name.  Until there is an `init` nothing is to be had; every `init` answers with that edition,
and after the first one so does every `get`, and every name means what it means in a catalogue
that is built afresh, whatever was asked in between. -/
theorem one_edition :
    (({} : Catalogue).registerAll builtIn).value = (firstEdition.catalogue, none) ∧
    Catalogue.ListsNames firstEdition.catalogue (builtIn.map Catalogue.entryOf) ∧
    firstEdition.catalogue.names = ["net_target_increase"] ∧
    ∀ calls : List Call,
      (∀ call, serveAll (calls ++ [call]) =
        ⟨((serveAll calls).value.1 ++ [((after calls).serve call).value.1],
          ((after calls).serve call).value.2),
          (serveAll calls).log ++ ((after calls).serve call).log⟩) ∧
      ((after calls).serve .init).value.1 = .edition (.ok firstEdition) ∧
      (.init ∉ calls →
        ((after calls).serve .get).value.1 = .edition (.error .notInitialised) ∧
        ∀ name config, ((after calls).serve (.resolve name config)).value.1 =
          .action (.error .notInitialised)) ∧
      (.init ∈ calls →
        (after calls).built = 1 ∧
        ((after calls).serve .get).value.1 = .edition (.ok firstEdition) ∧
        ∀ name config, ((after calls).serve (.resolve name config)).value.1 =
          let fresh := (({} : Catalogue).registerAll builtIn).value.1
          .action (fresh.resolve name config).run.value) := by
  refine ⟨value_registerAll_builtIn, listsNames_builtInCatalogue, rfl, fun calls => ?_⟩
  obtain ⟨hbefore, hsince⟩ := state_after calls
  refine ⟨fun call => Logged.runAll_concat serve call calls {}, ?_, fun hinit => ?_,
    fun hinit => ?_⟩
  · by_cases hinit : .init ∈ calls
    · rw [hsince hinit]
      rfl
    · rw [hbefore hinit]
      rfl
  · rw [hbefore hinit]
    exact ⟨rfl, fun _ _ => rfl⟩
  · rw [hsince hinit]
    exact ⟨rfl, rfl, serve_published_resolve⟩

end Shared
end Cooling
