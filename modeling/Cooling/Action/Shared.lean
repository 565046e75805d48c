import Cooling.Action.Catalogue
import Cooling.Action.NetIncrease

/-!
# The shared catalogue

A process has one catalogue, of the built-in behaviours.  It is built once, on the first
request, and never changed or built again; before that it is not to be had.
-/

namespace Cooling

/-- The behaviours that are always there. -/
def builtIn : List Behaviour := [NetIncrease.behaviour]

/-- A catalogue that was built, and the number of those built before it. -/
structure Edition where
  number : Nat
  catalogue : Catalogue

/-- The shared catalogue of a process. -/
structure Shared where
  /-- How many catalogues were built. -/
  built : Nat := 0
  /-- The one in use. -/
  current : Option Edition := none

namespace Shared

/-- The catalogue in use, which is built if there is none. -/
def init (shared : Shared) : Logged (Except ActionError Edition × Shared) :=
  match shared.current with
  | some edition => return (.ok edition, shared)
  | none => do
    match ← ({} : Catalogue).registerAll builtIn with
    | (_, some e) => return (.error e, shared)
    | (catalogue, none) =>
      let edition := ⟨shared.built, catalogue⟩
      Logged.report ⟨.info, "fanctl_app::actions", "action registry initialised",
        [.plain "actions" catalogue.available], none⟩
      return (.ok edition, ⟨shared.built + 1, some edition⟩)

/-- The catalogue in use. -/
def get (shared : Shared) : Except ActionError Edition :=
  match shared.current with
  | some edition => .ok edition
  | none => .error .notInitialised

/-- The action that a name and a configuration mean in the catalogue in use. -/
def resolve (shared : Shared) (name : String) (config : Json) : Attempt ActionError Action := do
  let edition ← shared.get
  edition.catalogue.resolve name config

end Shared
end Cooling
