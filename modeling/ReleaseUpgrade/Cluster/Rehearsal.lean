import ReleaseUpgrade.Cluster.Store

/-!
# Rehearsals

A `Rehearsal` runs programs against a cluster in memory, writes down every call and lets chosen
calls fail.  Time passes only where a program waits.
-/

namespace ReleaseUpgrade

/-- calls that are going to fail -/
structure Fault where
  /-- the name of the operation -/
  operation : String
  error : UpgradeError
  /-- how many times it still fails -/
  times : Nat

/-- a run against a cluster in memory -/
structure Rehearsal where
  store : Store
  faults : List Fault := []
  /-- the calls so far with their times in milliseconds, last one first -/
  journal : List (Call × Nat) := []
  /-- the milliseconds that have passed -/
  clock : Nat := 0

namespace Rehearsal

/-- the error of the first fault that is set for an operation, and the faults that remain -/
def strike? (operation : String) : List Fault → Option (UpgradeError × List Fault)
  | [] => none
  | f :: rest =>
    if f.operation = operation && 0 < f.times then
      some (f.error, if f.times = 1 then rest else { f with times := f.times - 1 } :: rest)
    else (strike? operation rest).map fun (e, rest) => (e, f :: rest)

/-- the answer to a call, which is written down first -/
def answer : Program.Handler Rehearsal
  | .wait ms, r => (.ok (), { r with clock := r.clock + ms })
  | c, r =>
    let r := { r with journal := (c, r.clock) :: r.journal }
    match strike? c.name r.faults with
    | some (e, faults) => (.error e, { r with faults })
    | none =>
      let (a, store) := Store.answer c r.store
      (a, { r with store })

/-- the outcome of a program, and the rehearsal after it -/
def run {α : Type} (r : Rehearsal) (p : Program α) : α × Rehearsal := p.run answer r

end Rehearsal

end ReleaseUpgrade
