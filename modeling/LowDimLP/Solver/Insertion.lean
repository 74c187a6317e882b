import LowDimLP.Error
import LowDimLP.Random.Source
/-!
# Random insertion

A run inserts items in uniformly random order: it draws an index below the number of pending items,
takes that item out, lets the last pending item fill the gap, and hands the item to a step together
with everything accepted so far. The pending items sit in a vector whose length is the number of steps
left, so the loop ends because that number falls.
-/

namespace LowDimLP

/-- A computation of a run: it draws from the source `σ`, and may fail after having drawn. -/
abbrev Run (σ : Type) := ExceptT SolverError (StateM σ)

/-- Draws an index below `n + 1`. -/
def Run.pick {σ : Type} [PickSource σ] (n : Nat) : Run σ (Fin (n + 1)) := do
  let (i, s) := PickSource.pick (← get) n
  set s
  return i

namespace Insertion

universe u v

variable {ι : Type u} {β : Type v}

/-- Takes item `i` out; the last item fills the gap. -/
def takeOut {n : Nat} (items : Vector ι (n + 1)) (i : Fin (n + 1)) : ι × Vector ι n :=
  (items[i], (items.set i items[n]).pop)

/-- Picks for `n` items: an index below `n`, then picks for the others. -/
def Picks : Nat → Type
  | 0 => Unit
  | n + 1 => Fin (n + 1) × Picks n

/-- The order in which the items leave under the given picks. -/
def order : {n : Nat} → Vector ι n → Picks n → List ι
  | 0, _, _ => []
  | _ + 1, items, (i, picks) =>
    let (x, rest) := takeOut items i
    x :: order rest picks

end Insertion

/-- Inserts the pending items in random order. `step` gets the items accepted before, the state they led
to (`none` before the first item) and the new item; the loop stops early at a state that `stops` it.
Gives the accepted items in order and the last state. -/
def insertAll {σ : Type} [PickSource σ] {ι β : Type} (step : List ι → Option β → ι → Run σ β)
    (stops : β → Bool) :
    {n : Nat} → Vector ι n → List ι → Option β → Run σ (List ι × Option β)
  | 0, _, accepted, state => return (accepted, state)
  | n + 1, pending, accepted, state => do
    let (x, rest) := Insertion.takeOut pending (← Run.pick n)
    let next ← step accepted state x
    if stops next then return (accepted ++ [x], some next)
    else insertAll step stops rest (accepted ++ [x]) (some next)

end LowDimLP
