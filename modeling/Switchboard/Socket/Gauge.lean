/-!
# The count of open connections

Each connection whose handshake succeeds is counted, and counted off at its end, and after either
the new count is recorded. The handshake, counting and recording are steps of their own, between
which other connections may take theirs, so the connections together are a system of actions on a
shared counter.
-/

namespace Switchboard

/-- How far a connection has come. Its handshake goes on, has failed, or has succeeded
    (`upgraded`), and then it is to be counted. A connection that has just been counted or counted
    off holds the count that it saw until this is recorded. Between the two it is `serving`, and
    after both it is `gone`. -/
inductive Stage where
  | arriving
  | refused
  | upgraded
  | counted (count : Int)
  | serving
  | discounted (count : Int)
  | gone
deriving DecidableEq, Repr

namespace Stage

/-- Whether the connection has been counted and not counted off. -/
def isOpen : Stage → Bool
  | .counted _ | .serving => true
  | .arriving | .refused | .upgraded | .discounted _ | .gone => false

/-- Whether a count is still to be recorded. -/
def isPending : Stage → Bool
  | .counted _ | .discounted _ => true
  | .arriving | .refused | .upgraded | .serving | .gone => false

end Stage

/-- The connections of a server with the counter that they share and the counts that have been
    recorded, in order. The counter is an integer without bounds. It is never negative and never
    more than the connections that are alive, so as long as these are fewer than `2 ^ 63` a counter
    of sixty-four bits counts the same. -/
structure Gauge where
  count : Int := 0
  recorded : List Int := []
  stages : List Stage := []
deriving DecidableEq, Repr

namespace Gauge

/-- What one connection can do next: it arrives, its handshake fails or succeeds, it is counted, it
    records the count that it has seen, or it ends and is counted off. -/
inductive Action where
  | arrive
  | refuse (i : Nat)
  | upgrade (i : Nat)
  | count (i : Nat)
  | record (i : Nat)
  | discount (i : Nat)
deriving DecidableEq, Repr

/-- Puts a connection at another stage. -/
def setStage (g : Gauge) (i : Nat) (s : Stage) : Gauge := { g with stages := g.stages.set i s }

/-- The connections and their counter after an action, if the action is possible. -/
def step? (g : Gauge) : Action → Option Gauge
  | .arrive => some { g with stages := g.stages ++ [.arriving] }
  | .refuse i =>
    match g.stages[i]? with
    | some .arriving => some (g.setStage i .refused)
    | _ => none
  | .upgrade i =>
    match g.stages[i]? with
    | some .arriving => some (g.setStage i .upgraded)
    | _ => none
  | .count i =>
    match g.stages[i]? with
    | some .upgraded =>
      some { g.setStage i (.counted (g.count + 1)) with count := g.count + 1 }
    | _ => none
  | .record i =>
    match g.stages[i]? with
    | some (.counted n) => some { g.setStage i .serving with recorded := g.recorded ++ [n] }
    | some (.discounted n) => some { g.setStage i .gone with recorded := g.recorded ++ [n] }
    | _ => none
  | .discount i =>
    match g.stages[i]? with
    | some .serving =>
      some { g.setStage i (.discounted (g.count - 1)) with count := g.count - 1 }
    | _ => none

/-- The connections and their counter after a list of actions, if each is possible in its turn. -/
def run? : List Action → Gauge → Option Gauge
  | [], g => some g
  | a :: rest, g => (g.step? a).bind (run? rest)

/-- The number of connections that are counted. -/
def openCount (g : Gauge) : Nat := (g.stages.filter Stage.isOpen).length

/-- Whether no connection has a count to record. -/
def isAtRest (g : Gauge) : Bool := g.stages.all fun s => !s.isPending

/-- The last count that has been recorded. -/
def last? (g : Gauge) : Option Int := g.recorded.getLast?

end Gauge

end Switchboard
