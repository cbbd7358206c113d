import DeviceTrust.KeySet.Cache

/-!
# A cache among its callers and loops

Callers ask a cache for refreshes, and refresh loops do so by themselves: whenever the
refresh interval has passed, and after a wake-up, once the rate limit allows it. A timeline
is the state of all of them at one moment. It changes by actions, and any sequence of
actions that `step?` allows is a run: the order in which callers and loops move is left open,
and so is how late they are, for a deadline is only the earliest moment at which one can go on.
Where nobody is late, time passes as `canPass` says. What the source of keys does comes with
the action that begins an attempt.

A loop is a task that is run now and then. So two things about loops happen in two steps. Who
cancels a loop only asks for that: the loop is not run again, but it holds what it holds, an
attempt under way among it, until its task is dropped. And a wake-up goes to the loop that has
been waiting for one longest, which takes it when it is run; only if no loop is waiting is it stored.
-/

namespace DeviceTrust.KeySet

structure Attempt where
  began : Nat
  reply : Reply

def Attempt.due (a : Attempt) (limit : Duration) : Nat := a.began + a.reply.duration limit

/-- What a refresh loop waits for. -/
inductive Phase where
  /-- The end of the refresh interval, or a wake-up. -/
  | idle (deadline : Nat)
  /-- To be run, for it has been handed a wake-up. The refresh interval may still end first. -/
  | woken (deadline : Nat)
  /-- The end of the rate limit, after a wake-up. -/
  | held (deadline : Nat)
  /-- The end of its own attempt. -/
  | fetching (attempt : Attempt)

structure Loop where
  id : Nat
  /-- Whether its handle reports errors. -/
  reports : Bool
  spawned : Nat
  phase : Phase
  /-- Whether its task is dropped instead of being run again. -/
  cancelled : Bool := false

namespace Loop

def isIdle (l : Loop) : Bool :=
  match l.phase with
  | .idle _ => true
  | _ => false

/-- Whether a loop has been handed a wake-up and not yet taken it. -/
def isWoken (l : Loop) : Bool :=
  match l.phase with
  | .woken _ => true
  | _ => false

def canAwaken (l : Loop) : Bool := l.isWoken && !l.cancelled

def rouse (l : Loop) : Loop :=
  match l.phase with
  | .idle d => { l with phase := .woken d }
  | _ => l

end Loop

structure Call where
  id : Nat
  reports : Bool
  attempt : Attempt

inductive Actor where
  | caller (id : Nat)
  | loop (id : Nat)
  deriving DecidableEq, Repr

inductive Occurrence where
  | began (who : Actor) (attempt : Attempt)
  | answered (who : Actor) (outcome : Outcome)
  /-- An attempt was given up with its loop or its caller. -/
  | abandoned (who : Actor)
  /-- An error was given to the handler of a handle. -/
  | reported (who : Actor) (error : Error)
  | missed (kid : String)

/-- A cache, its callers and its loops at one moment. -/
structure Timeline where
  /-- Milliseconds since the cache was made. -/
  now : Nat
  /-- The moment at which the cache was made. -/
  origin : Moment
  cache : Cache
  calls : List Call
  /-- Loops, the one that began its present phase first in front. -/
  loops : List Loop
  /-- What happened and when, latest first. -/
  history : List (Nat × Occurrence)

inductive Action where
  | refresh (id : Nat) (reports : Bool) (reply : Reply)
  | complete (id : Nat)
  /-- A caller gives up while its attempt is under way. -/
  | withdraw (id : Nat)
  /-- A loop whose deadline has come, or whose attempt is over, goes on. -/
  | proceed (id : Nat) (reply : Reply)
  | awaken (id : Nat) (reply : Reply)
  | resolve (kid : String)
  | spawn (id : Nat) (reports : Bool)
  /-- Somebody cancels a loop, whatever it is doing: its task is to be dropped. -/
  | cancel (id : Nat)
  /-- The task of a cancelled loop is dropped. -/
  | drop (id : Nat)
  | pass (duration : Duration)

namespace Timeline

def start (origin : Moment) (cache : Cache) : Timeline := ⟨0, origin, cache, [], [], []⟩

def wall (t : Timeline) : Moment := t.origin + t.now

def note (t : Timeline) (o : Occurrence) : Timeline := { t with history := (t.now, o) :: t.history }

/-- When an attempt of this cache is over. -/
def due (t : Timeline) (a : Attempt) : Nat := a.due t.cache.config.fetchTimeout

def deadline (t : Timeline) (l : Loop) : Nat :=
  match l.phase with
  | .idle d | .woken d | .held d => d
  | .fetching a => t.due a

/-- Whether a loop can move without time passing, or its task be dropped. -/
def canMove (t : Timeline) (l : Loop) : Bool := l.cancelled || t.deadline l ≤ t.now || l.isWoken

/-- Whether nobody can move without time passing. -/
def isQuiet (t : Timeline) : Bool :=
  t.calls.all (fun c => t.now < t.due c.attempt) && t.loops.all fun l => !t.canMove l

def deadlines (t : Timeline) : List Nat :=
  t.calls.map (fun c => t.due c.attempt) ++ t.loops.map t.deadline

/-- Whether a time may pass without anybody being late. -/
def canPass (t : Timeline) (d : Duration) : Bool :=
  t.isQuiet && t.deadlines.all fun e => t.now + d ≤ e

/-- Puts a loop into a phase, behind all others. -/
def enter (t : Timeline) (l : Loop) (phase : Phase) : Timeline :=
  { t with loops := t.loops.filter (·.id != l.id) ++ [{ l with phase }] }

/-- Changes the loop of an identifier where it stands. -/
def adjust (t : Timeline) (id : Nat) (f : Loop → Loop) : Timeline :=
  { t with loops := t.loops.map fun l => if l.id = id then f l else l }

/-- Hands a stored wake-up to the loop that has been waiting for one longest. -/
def hand (t : Timeline) : Timeline :=
  match t.loops.find? Loop.isIdle with
  | some l =>
    if t.cache.wake then { t.adjust l.id Loop.rouse with cache := { t.cache with wake := false } } else t
  | none => t

/-- Gives back the wake-up that a loop was handed, if it was. -/
def giveBack (t : Timeline) (l : Loop) : Timeline :=
  { t with cache := { t.cache with wake := t.cache.wake || l.isWoken } }

/-- Sends a loop to wait for the refresh interval or a wake-up. -/
def rest (t : Timeline) (l : Loop) : Timeline :=
  t.enter l (.idle (t.now + t.cache.config.refreshInterval))

def conclude (t : Timeline) (who : Actor) (reports : Bool) (a : Attempt) : Timeline :=
  let result := a.reply.outcome t.cache.config.fetchTimeout
  let t := { t with cache := t.cache.finish t.wall result }
  match result with
  | .ok keys => t.note (.answered who (.refreshed keys.size))
  | .error e =>
    let t := if reports then t.note (.reported who e) else t
    t.note (.answered who (.failed e))

/-- A request for a refresh: the timeline after it, and the attempt if one began. -/
def request (t : Timeline) (who : Actor) (reply : Reply) : Timeline × Option Attempt :=
  match t.cache.admission t.now with
  | .inFlight => (t.note (.answered who .inFlight), none)
  | .rateLimited d => (t.note (.answered who (.rateLimited d)), none)
  | .admitted =>
    let attempt : Attempt := ⟨t.now, reply⟩
    (({ t with cache := t.cache.begin t.now }).note (.began who attempt), some attempt)

def cycle (t : Timeline) (l : Loop) (reply : Reply) : Timeline :=
  match t.request (.loop l.id) reply with
  | (t, some attempt) => t.enter l (.fetching attempt)
  | (t, none) => t.rest l

/-- A loop takes its wake-up, and waits for the rate limit if it must. -/
def takeWake (t : Timeline) (l : Loop) (reply : Reply) : Timeline :=
  if t.cache.remaining t.now = 0 then t.cycle l reply
  else t.enter l (.held (t.now + t.cache.remaining t.now))

def loop? (t : Timeline) (id : Nat) : Option Loop := t.loops.find? (·.id == id)

def call? (t : Timeline) (id : Nat) : Option Call := t.calls.find? (·.id == id)

/-- What an action does, if it may happen. A stored wake-up has yet to be handed to somebody. -/
def act? (t : Timeline) : Action → Option Timeline
  | .refresh id reports reply =>
    if (t.call? id).isSome then none
    else match t.request (.caller id) reply with
      | (t, some attempt) => some { t with calls := t.calls ++ [⟨id, reports, attempt⟩] }
      | (t, none) => some t
  | .complete id =>
    match t.call? id with
    | none => none
    | some c =>
      if t.now < t.due c.attempt then none
      else
        let t := { t with calls := t.calls.filter (·.id != id) }
        some (t.conclude (.caller id) c.reports c.attempt)
  | .withdraw id =>
    match t.call? id with
    | none => none
    | some _ =>
      let t := { t with calls := t.calls.filter (·.id != id), cache := t.cache.abandon }
      some (t.note (.abandoned (.caller id)))
  | .proceed id reply =>
    match t.loop? id with
    | none => none
    | some l =>
      if l.cancelled || t.now < t.deadline l then none
      else match l.phase with
        | .fetching a => some ((t.conclude (.loop id) l.reports a).rest l)
        | _ => some ((t.giveBack l).cycle l reply)
  | .awaken id reply =>
    match t.loop? id with
    | none => none
    | some l => if l.canAwaken then some (t.takeWake l reply) else none
  | .resolve kid =>
    let (key, cache) := t.cache.resolve kid
    let t := { t with cache }
    some (if key.isSome then t else t.note (.missed kid))
  | .spawn id reports =>
    if (t.loop? id).isSome then none
    else
      let phase : Phase := .idle (t.now + t.cache.config.refreshInterval)
      some { t with loops := t.loops ++ [{ id, reports, spawned := t.now, phase }] }
  | .cancel id =>
    match t.loop? id with
    | none => none
    | some _ => some (t.adjust id fun l => { l with cancelled := true })
  | .drop id =>
    match t.loop? id with
    | none => none
    | some l =>
      if l.cancelled then
        let t := { t.giveBack l with loops := t.loops.filter (·.id != id) }
        match l.phase with
        | .fetching _ => some (({ t with cache := t.cache.abandon }).note (.abandoned (.loop id)))
        | _ => some t
      else none
  | .pass d => some { t with now := t.now + d }

/-- The timeline after an action, if the action may happen. -/
def step? (t : Timeline) (action : Action) : Option Timeline := (t.act? action).map hand

/-- The timeline after a sequence of actions, if all of them may happen in their turn. -/
def run? (t : Timeline) : List Action → Option Timeline
  | [] => some t
  | a :: as => (t.step? a).bind fun t => t.run? as

def begun (t : Timeline) : Nat :=
  (t.history.filter fun o => match o.2 with
    | .began _ _ => true
    | _ => false).length

/-- The errors that handlers were given, first to last. -/
def reports (t : Timeline) : List Error :=
  (t.history.filterMap fun o => match o.2 with
    | .reported _ e => some e
    | _ => none).reverse

/-- What the latest request of a caller came to. -/
def answer? (t : Timeline) (id : Nat) : Option Outcome :=
  t.history.findSome? fun o => match o.2 with
    | .answered (.caller i) outcome => if i = id then some outcome else none
    | _ => none

end Timeline

end DeviceTrust.KeySet
