import DeviceTrust.KeySet.Timeline

/-!
# Playing a timeline

Of the runs that a timeline allows, this module plays one: callers move before loops, loops
in the order in which they came to wait, and time then jumps to the next deadline. The task of a
loop is dropped as soon as the loop is cancelled. The source of keys follows a script, one reply
for each attempt, the last one again and again.
-/

namespace DeviceTrust.KeySet

/-- The replies that a source has yet to give. -/
abbrev Script := List Reply

namespace Script

/-- The next reply. A source without a script is unavailable. -/
def next : Script → Reply
  | [] => ⟨0, .error (.status 503)⟩
  | r :: _ => r

def rest : Script → Script
  | _ :: s :: more => s :: more
  | script => script

end Script

structure Schedule where
  timeline : Timeline
  script : Script

namespace Schedule

/-- Performs an action, if it may happen, and moves the script on if an attempt began. -/
def perform (s : Schedule) (action : Reply → Action) : Schedule :=
  match s.timeline.step? (action s.script.next) with
  | none => s
  | some t =>
    ⟨t, if !s.timeline.cache.locked && t.cache.locked then s.script.rest else s.script⟩

/-- Performs an action, and drops the task of a loop that it cancels. -/
def act (s : Schedule) (action : Reply → Action) : Schedule :=
  let s := s.perform action
  match s.timeline.loops.find? (·.cancelled) with
  | some l => s.perform fun _ => .drop l.id
  | none => s

/-- Ends a loop's attempt that takes no time in the same breath. -/
def moveLoop (s : Schedule) (id : Nat) : Schedule :=
  let moved := match s.timeline.loop? id with
    | some l => if l.canAwaken then s.act (.awaken id) else s.act (.proceed id)
    | none => s
  match moved.timeline.loop? id with
  | some l =>
    match l.phase with
    | .fetching _ => moved.act (.proceed id)
    | _ => moved
  | none => moved

/-- Moves whoever can move without time passing, at most `steps` times. -/
def settle : Nat → Schedule → Schedule
  | 0, s => s
  | steps + 1, s =>
    match s.timeline.calls.find? fun c => s.timeline.due c.attempt ≤ s.timeline.now with
    | some c => settle steps (s.act fun _ => .complete c.id)
    | none =>
      match s.timeline.loops.find? s.timeline.canMove with
      | some l => settle steps (s.moveLoop l.id)
      | none => s

/-- Bound on the moves at one moment: a call ends, and a loop ends an attempt, takes a wake-up and begins
another; one more wake-up may be stored. -/
def bound (s : Schedule) : Nat := s.timeline.calls.length + 4 * s.timeline.loops.length + 1

/-- Moves everybody who can move without time passing. -/
def quiet (s : Schedule) : Schedule := s.settle s.bound

/-- Lets time pass up to a moment, if nobody is late for that. -/
def passTo (s : Schedule) (moment : Nat) : Schedule :=
  let d := moment - s.timeline.now
  if s.timeline.canPass d then s.act fun _ => .pass d else s

def nextBefore (s : Schedule) (moment : Nat) : Option Nat :=
  (s.timeline.deadlines.filter (· < moment)).min?

/-- Plays up to a moment without the moves of that moment itself, in at most `steps` jumps. -/
def playBefore (moment : Nat) : Nat → Schedule → Schedule
  | 0, s => s
  | steps + 1, s =>
    match s.nextBefore moment with
    | some d => playBefore moment steps ((s.passTo d).quiet)
    | none => s.passTo moment

/-- Plays up to a moment, without the moves of that moment itself. -/
def playTo (s : Schedule) (moment : Nat) : Schedule :=
  playBefore moment (moment - s.timeline.now + 1) s.quiet

def sleep (s : Schedule) (d : Duration) : Schedule := s.playTo (s.timeline.now + d)

def finishCalls (s : Schedule) : Schedule :=
  s.timeline.calls.foldl (fun s c => s.act fun _ => .complete c.id) s

/-- Begins a refresh of a caller; one that takes no time is over at once. -/
def beginCall (s : Schedule) (id : Nat) (reports : Bool) : Schedule :=
  (s.act (.refresh id reports)).act fun _ => .complete id

def await (s : Schedule) (id : Nat) : Schedule :=
  match s.timeline.call? id with
  | some c => (s.playTo (s.timeline.due c.attempt)).finishCalls
  | none => s

def refresh (s : Schedule) (id : Nat) (reports : Bool) : Schedule := (s.beginCall id reports).await id

/-- Two refreshes, the second one a while after the first, until both are over. -/
def refreshTwice (s : Schedule) (first second : Nat) (gap : Duration) (reports : Bool) : Schedule :=
  let s := s.beginCall first reports
  let s := if gap = 0 then s else (s.sleep gap).finishCalls
  let s := s.beginCall second reports
  (s.await first).await second

/-- Asks for a key; the answer is whether it is there. -/
def resolve (s : Schedule) (kid : String) : Bool × Schedule :=
  (s.timeline.cache.keys.contains kid, s.act fun _ => .resolve kid)

/-- A cache of its own: it is refreshed once, whatever comes of that, and a loop is started. -/
def launch (origin : Moment) (config : CacheConfig) (script : Script) (reports : Bool) :
    Except Error Schedule := do
  let cache ← Cache.new config
  let s : Schedule := ⟨.start origin cache, script⟩
  return (s.refresh 0 reports).act fun _ => .spawn 0 reports

end Schedule

end DeviceTrust.KeySet
