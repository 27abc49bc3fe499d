/-! Loops that act until they have to wait. Each step descends in a well-founded order, so a
loop comes to wait after finitely many steps whatever state it is polled in. -/
namespace UsbEthernet

variable {σ ε μ : Type} [WellFoundedRelation μ]

/-- A loop on states `σ` whose steps emit events `ε` and descend in a measure `μ`. -/
structure Loop (σ ε μ : Type) [WellFoundedRelation μ] where
  /-- One step and its events; none while the loop has to wait. -/
  step : σ → Option (σ × List ε)
  measure : σ → μ
  descends : ∀ {s t : σ} {events : List ε}, step s = some (t, events) →
    WellFoundedRelation.rel (measure t) (measure s)

/-- Steps until the loop has to wait. -/
def Loop.poll (loop : Loop σ ε μ) (s : σ) : σ × List ε :=
  match _h : loop.step s with
  | none => (s, [])
  | some (t, events) =>
    match loop.poll t with
    | (last, rest) => (last, events ++ rest)
termination_by loop.measure s
decreasing_by exact loop.descends _h

end UsbEthernet
