/-!
# Histograms

A `Histogram` counts durations in buckets.  Each bucket takes the durations up to its bound that are
too long for the bucket before it; the last one has no bound.
-/

namespace ReleaseUpgrade

/-- a nanosecond count in seconds -/
def Seconds.ofNanoseconds (n : Nat) : Float :=
  Float.ofNat (n / Nat.pow 10 9) + Float.ofNat (n % Nat.pow 10 9) / 1000000000.0

/-- how many durations there were, by their length in seconds -/
structure Histogram where
  count : UInt64 := 0
  sum : Float := 0.0
  /-- the bounds and the counts of the buckets -/
  buckets : List (Option Float × UInt64)

namespace Histogram

/-- no durations yet -/
def empty (bounds : List Float) : Histogram where
  buckets := bounds.map (fun b => (some b, 0)) ++ [(none, 0)]

/-- the bucket of this bound takes the duration, if no bucket before it does -/
def fits (seconds : Float) : Option Float → Bool
  | some bound => seconds ≤ bound
  | none => true

/-- the first bucket that takes the duration counts it -/
def countIn (seconds : Float) : List (Option Float × UInt64) → List (Option Float × UInt64)
  | [] => []
  | (bound, n) :: rest =>
    if fits seconds bound then (bound, n + 1) :: rest else (bound, n) :: countIn seconds rest

def observe (seconds : Float) (h : Histogram) : Histogram where
  count := h.count + 1
  sum := h.sum + seconds
  buckets := countIn seconds h.buckets

/-- for each bound how many durations are not longer, `before` of them in earlier buckets -/
def cumulated (before : UInt64) : List (Option Float × UInt64) → List (Option Float × UInt64)
  | [] => []
  | (bound, n) :: rest => (bound, before + n) :: cumulated (before + n) rest

end Histogram

end ReleaseUpgrade
