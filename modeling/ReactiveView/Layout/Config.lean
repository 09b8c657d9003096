import ReactiveView.Linear.Formula

/-!
This module contains how firmly a container's size is suggested to its own solver, for resizes and
for probes of its least and greatest size.
-/

namespace ReactiveView

/--
A strength and a weight for suggested sizes.
-/
structure Suggestion where
  /-- The strength. -/
  strength : Strength Float
  /-- Its weight. -/
  weight : Float

/-- The weighted strength. -/
def Suggestion.effective (s : Suggestion) : Strength Float := s.strength.weighted s.weight

/-- Medium strength, unweighted. -/
def Suggestion.default : Suggestion := ⟨.medium, 1⟩

/-- Read a strength and a weight; null stands for the default. -/
def Suggestion.ofJson? : Json → Option Suggestion
  | .null => some .default
  | .array [s, w] => do pure ⟨← Strength.ofJson? s, ← w.toDecimal?⟩
  | _ => none

/--
The strengths at which containers suggest sizes. Probes use a much lower one, so that constraints of
medium strength win against them.
-/
structure LayoutConfig where
  /-- The strength of a resize. -/
  resizeStrength : Strength Float := .medium
  /-- Its weight. -/
  resizeWeight : Float := 1
  /-- The strength of a probe. -/
  probeStrength : Strength Float := .medium
  /-- Its weight. -/
  probeWeight : Float := 0.1

namespace LayoutConfig

/-- What a resize suggests with. -/
def resize (c : LayoutConfig) : Suggestion := ⟨c.resizeStrength, c.resizeWeight⟩

/-- What a probe suggests with. -/
def probe (c : LayoutConfig) : Suggestion := ⟨c.probeStrength, c.probeWeight⟩

/-- Read a configuration; what is not given has its default. -/
def ofJson? (j : Json) : Option LayoutConfig := do
  let default : LayoutConfig := {}
  match ← j.fields? ["resize_strength", "resize_weight", "probe_strength", "probe_weight"] with
  | [resizeStrength, resizeWeight, probeStrength, probeWeight] =>
    pure {
      resizeStrength := ⟨← Json.optional? Json.toFloat? default.resizeStrength.value resizeStrength⟩
      resizeWeight := ← Json.optional? Json.toFloat? default.resizeWeight resizeWeight
      probeStrength := ⟨← Json.optional? Json.toFloat? default.probeStrength.value probeStrength⟩
      probeWeight := ← Json.optional? Json.toFloat? default.probeWeight probeWeight }
  | _ => none

end LayoutConfig

end ReactiveView
