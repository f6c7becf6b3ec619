import ResponsesApiStore.Redis.StreamId
import ResponsesApiStore.Redis.Transaction
import Mathlib.Data.List.Pairwise

/-!
# Streams and consumer groups

A stream is a list of entries with strictly increasing identifiers, together with its
consumer groups. A group remembers the last identifier it delivered and its *pending entries
list*, the entries delivered to a consumer and not yet acknowledged. Both carry their order
as fields, so a stream with entries out of order, or a group with an undelivered entry
pending, cannot be built.

`StreamCmd.run` executes one command. Where the server has a choice of its own (the
identifier `XADD *` generates, how much an approximate `MAXLEN` trims, how far `XAUTOCLAIM`
scans and which entries have been idle long enough, whether the lag of a group is known) the
choice is an argument, a `StreamChoice`; `run` answers `none` for a choice the server cannot
make.

Two fields of a group are history and are read by no command: `start`, the identifier the
group was created at, and `acked`, the identifiers it has acknowledged.
-/

namespace Redis

/-- An entry of a stream. -/
structure StreamEntry where
  id : StreamId
  fields : List (String × String)
  deriving DecidableEq, Repr

/-- An entry of a group's pending entries list. -/
structure Pending where
  id : StreamId
  consumer : String
  deriving DecidableEq, Repr

/-- A consumer group. -/
structure Group where
  name : String
  start : StreamId
  lastDelivered : StreamId
  pel : List Pending
  acked : List StreamId
  pel_sorted : pel.Pairwise fun a b => a.id < b.id
  pel_le : ∀ p ∈ pel, p.id ≤ lastDelivered

/-- A stream with its groups. -/
structure Stream where
  entries : List StreamEntry
  lastId : StreamId
  groups : List Group
  sorted : entries.Pairwise fun a b => a.id < b.id
  bounded : ∀ e ∈ entries, e.id ≤ lastId

/-- The stream `MKSTREAM` creates. -/
def Stream.empty : Stream := ⟨[], .zero, [], List.Pairwise.nil, by simp⟩

/-! ### Groups -/

namespace Group

/-- A new group that starts after `start`. -/
def create (name : String) (start : StreamId) : Group :=
  ⟨name, start, start, [], [], List.Pairwise.nil, by simp⟩

/-- Keep the pending entries that satisfy `keep`. -/
def filterPel (g : Group) (keep : Pending → Bool) : Group :=
  { g with
    pel := g.pel.filter keep
    pel_sorted := g.pel_sorted.filter _
    pel_le := fun p hp => g.pel_le p (List.mem_of_mem_filter hp) }

/-- Hand the pending entries that satisfy `take` to `consumer`. -/
def reassign (g : Group) (take : Pending → Bool) (consumer : String) : Group :=
  { g with
    pel := g.pel.map fun p => if take p then { p with consumer } else p
    pel_sorted := by
      refine List.pairwise_map.mpr (g.pel_sorted.imp fun {a b} hab => ?_)
      split_ifs <;> exact hab
    pel_le := by
      intro p hp
      obtain ⟨q, hq, rfl⟩ := List.mem_map.mp hp
      split_ifs <;> exact g.pel_le q hq }

/-- Acknowledge one entry: it leaves the pending entries list. -/
def ack (g : Group) (id : StreamId) : Group :=
  { g.filterPel fun p => p.id ≠ id with acked := id :: g.acked }

end Group

/-! ### Streams -/

namespace Stream

/-- Append an entry under an identifier above all earlier ones. -/
def add (s : Stream) (id : StreamId) (fields : List (String × String)) (h : s.lastId < id) :
    Stream :=
  { s with
    entries := s.entries ++ [⟨id, fields⟩]
    lastId := id
    sorted := by
      refine List.pairwise_append.mpr ⟨s.sorted, List.pairwise_singleton _ _, fun a ha b hb => ?_⟩
      obtain rfl := List.mem_singleton.mp hb
      exact (s.bounded a ha).trans_lt h
    bounded := by
      intro e he
      rcases List.mem_append.mp he with he | he
      · exact ((s.bounded e he).trans_lt h).le
      · exact (List.mem_singleton.mp he) ▸ le_rfl }

/-- Drop the `n` oldest entries. -/
def trim (s : Stream) (n : ℕ) : Stream :=
  { s with
    entries := s.entries.drop n
    sorted := s.sorted.sublist (List.drop_sublist n _)
    bounded := fun e he => s.bounded e (List.mem_of_mem_drop he) }

/-- The group of a given name. -/
def group? (s : Stream) (name : String) : Option Group :=
  s.groups.find? fun g => g.name = name

/-- Change the group of a given name. -/
def updateGroup (s : Stream) (name : String) (f : Group → Group) : Stream :=
  { s with groups := s.groups.map fun g => if g.name = name then f g else g }

/-- The first `count` entries a group has not been delivered yet. -/
def undelivered (s : Stream) (g : Group) (count : ℕ) : List StreamEntry :=
  (s.entries.filter fun e => g.lastDelivered < e.id).take count

theorem undelivered_sorted (s : Stream) (g : Group) (count : ℕ) :
    (s.undelivered g count).Pairwise fun a b => a.id < b.id :=
  (s.sorted.filter _).sublist (List.take_sublist _ _)

theorem mem_undelivered {s : Stream} {g : Group} {count : ℕ} {e : StreamEntry}
    (h : e ∈ s.undelivered g count) : e ∈ s.entries ∧ g.lastDelivered < e.id := by
  have hmem := List.mem_filter.mp (List.mem_of_mem_take h)
  exact ⟨hmem.1, by simpa using hmem.2⟩

/-- The last identifier of a sorted list of entries, `id` if there is none. -/
def lastOf (id : StreamId) (es : List StreamEntry) : StreamId :=
  (es.getLast?.map StreamEntry.id).getD id

theorem le_lastOf {id : StreamId} {es : List StreamEntry}
    (hs : es.Pairwise fun a b => a.id < b.id) {e : StreamEntry} (he : e ∈ es) :
    e.id ≤ lastOf id es := by
  obtain ⟨init, x, rfl⟩ : ∃ init x, es = init ++ [x] :=
    ⟨es.dropLast, es.getLast (List.ne_nil_of_mem he), (List.dropLast_append_getLast _).symm⟩
  have hlast : lastOf id (init ++ [x]) = x.id := by simp [lastOf]
  rw [hlast]
  rcases List.mem_append.mp he with he | he
  · exact ((List.pairwise_append.mp hs).2.2 e he x (List.mem_singleton_self x)).le
  · exact (List.mem_singleton.mp he) ▸ le_rfl

theorem le_lastOf_start {id : StreamId} {es : List StreamEntry}
    (h : ∀ e ∈ es, id < e.id) : id ≤ lastOf id es := by
  rcases hlast : es.getLast? with _ | x
  · simp [lastOf, hlast]
  · simp only [lastOf, hlast, Option.map_some, Option.getD_some]
    exact (h x (List.mem_of_getLast? hlast)).le

/-- Deliver the next `count` entries of a group to `consumer`. -/
def deliver (s : Stream) (count : ℕ) (consumer : String) (g : Group) : Group :=
  { g with
    lastDelivered := lastOf g.lastDelivered (s.undelivered g count)
    pel := g.pel ++ (s.undelivered g count).map fun e => ⟨e.id, consumer⟩
    pel_sorted := by
      refine List.pairwise_append.mpr
        ⟨g.pel_sorted, List.pairwise_map.mpr (s.undelivered_sorted g count), ?_⟩
      intro p hp q hq
      obtain ⟨e, he, rfl⟩ := List.mem_map.mp hq
      exact (g.pel_le p hp).trans_lt (mem_undelivered he).2
    pel_le := by
      intro p hp
      rcases List.mem_append.mp hp with hp | hp
      · exact (g.pel_le p hp).trans (le_lastOf_start fun e he => (mem_undelivered he).2)
      · obtain ⟨e, he, rfl⟩ := List.mem_map.mp hp
        exact le_lastOf (s.undelivered_sorted g count) he }

/-- The entry an identifier names. -/
def findEntry (s : Stream) (id : StreamId) : Option StreamEntry :=
  s.entries.find? fun e => e.id = id

end Stream

/-! ### Commands -/

/-- The commands on one stream key. -/
inductive StreamCmd
  | exist
  | xadd (maxlen : Option ℕ) (fields : List (String × String))
  | xgroupCreate (group start : String)
  | xinfoGroups
  | xrange (start stop : String) (count : ℕ)
  | xpending (group start stop : String) (count : ℕ)
  | xack (group id : String)
  | xautoclaim (group consumer : String) (minIdle : ℕ) (start : String) (count : ℕ)
  | xreadgroup (group consumer : String) (count : ℕ) (block : Option ℕ)
  deriving DecidableEq

/-- An entry as a reply carries it. -/
structure EntryReply where
  id : String
  fields : List (String × String)
  deriving DecidableEq, Repr

/-- A group as `XINFO GROUPS` reports it. -/
structure GroupInfo where
  name : String
  lastDeliveredId : String
  lag : Option ℕ
  deriving DecidableEq, Repr

/-- The reply of `XAUTOCLAIM`: where to continue, and the entries claimed. -/
structure AutoclaimReply where
  nextStreamId : String
  claimed : List EntryReply
  deriving DecidableEq, Repr

@[reducible]
def StreamCmd.Reply : StreamCmd → Type
  | .exist => Except Error Bool
  | .xadd .. | .xgroupCreate .. => Except Error Unit
  | .xinfoGroups => Except Error (List GroupInfo)
  | .xrange .. => Except Error (List EntryReply)
  | .xpending .. => Except Error (List String)
  | .xack .. => Except Error ℕ
  | .xautoclaim .. => Except Error AutoclaimReply
  | .xreadgroup .. => Except Error (Option (List EntryReply))

/-- What the server decides for itself. -/
structure StreamChoice where
  id : StreamId
  trim : ℕ
  scan : ℕ
  idle : StreamId → Bool
  lagKnown : Bool

def StreamEntry.reply (e : StreamEntry) : EntryReply := ⟨e.id.format, e.fields⟩

/-- Whether an identifier is at or, for an exclusive start, after the start of a range. -/
def inRange (start : Bool × StreamId) (id : StreamId) : Bool :=
  if start.1 then start.2 < id else start.2 ≤ id

/-- The end of a range: `+` or an identifier. -/
def parseRangeStop (s : String) : Option (StreamId → Bool) :=
  if s = "+" then some fun _ => true
  else (StreamId.parse s).map fun stop id => id ≤ stop

/-- The start of a new group: `$` is the end of the stream. -/
def parseGroupStart (s : Stream) (start : String) : Option StreamId :=
  if start = "$" then some s.lastId else StreamId.parse start

def noGroup : Error := .reply "NOGROUP: No such key or consumer group"

def invalidId : Error := responseError "Invalid stream ID specified as stream command argument"

def invalidStart : Error := responseError "invalid start ID for the interval"

def noSuchKey : Error := responseError "no such key"

def busyGroup : Error := .reply "BUSYGROUP: Consumer Group name already exists"

/-- The start of a range: `-`, an identifier, or `(` and an identifier to exclude it, which has to
be followed by another one. -/
def parseRangeStart (s : String) : Except Error (Bool × StreamId) :=
  if s = "-" then .ok (false, .zero)
  else match s.toList with
    | '(' :: cs =>
      match StreamId.parse (String.ofList cs) with
      | none => .error invalidId
      | some id => if id = .max then .error invalidStart else .ok (true, id)
    | _ =>
      match StreamId.parse s with
      | none => .error invalidId
      | some id => .ok (false, id)

/-- What an `XAUTOCLAIM` does to one group: of the first `scan` pending entries at or after
`start`, those no longer in the stream are forgotten and those idle long enough are handed to
the consumer. -/
structure AutoclaimScan where
  scanned : List Pending
  next : StreamId

def autoclaimScan (g : Group) (start : StreamId) (scan : ℕ) : AutoclaimScan :=
  let tail := g.pel.filter fun p => start ≤ p.id
  ⟨tail.take scan, ((tail.drop scan).head?.map Pending.id).getD .zero⟩

/-- Execute one command on the stream; `none` when the server cannot make the choice. -/
def StreamCmd.run (s : Option Stream) (choice : StreamChoice) :
    (c : StreamCmd) → Option (Option Stream × c.Reply)
  | .exist => some (s, .ok s.isSome)
  | .xadd maxlen fields =>
    let stream := s.getD .empty
    if h : stream.lastId < choice.id then
      let added := stream.add choice.id fields h
      -- the length of a stream is a 64-bit counter
      if added.entries.length < 2 ^ 64 then
        some (some (if maxlen.isSome then added.trim choice.trim else added), .ok ())
      else none
    else none
  | .xgroupCreate group start =>
    let stream := s.getD .empty
    match parseGroupStart stream start with
    | none => some (s, .error invalidId)
    | some id =>
      match stream.group? group with
      | some _ => some (some stream, .error busyGroup)
      | none => some (some { stream with groups := stream.groups ++ [.create group id] }, .ok ())
  | .xinfoGroups =>
    match s with
    | none => some (s, .error noSuchKey)
    | some stream =>
      some (s, .ok (stream.groups.map fun g => ⟨g.name, g.lastDelivered.format,
        if choice.lagKnown then
          some (stream.entries.filter fun e => g.lastDelivered < e.id).length
        else none⟩))
  | .xrange start stop count =>
    match parseRangeStart start, parseRangeStop stop with
    | .ok start, some stop =>
      some (s, .ok ((((s.getD .empty).entries.filter fun e =>
        inRange start e.id && stop e.id).take count).map StreamEntry.reply))
    | .error e, _ => some (s, .error e)
    | .ok _, none => some (s, .error invalidId)
  | .xpending group start stop count =>
    match (s.getD .empty).group? group with
    | none => some (s, .error noGroup)
    | some g =>
      match parseRangeStart start, parseRangeStop stop with
      | .ok start, some stop =>
        some (s, .ok (((g.pel.filter fun p =>
          inRange start p.id && stop p.id).take count).map fun p => p.id.format))
      | .error e, _ => some (s, .error e)
      | .ok _, none => some (s, .error invalidId)
  | .xack group id =>
    match StreamId.parse id with
    | none => some (s, .error invalidId)
    | some id =>
      match (s.getD .empty).group? group with
      | none => some (s, .ok 0)
      | some g =>
        if g.pel.any fun p => p.id = id then
          some (s.map fun stream => stream.updateGroup group fun g => g.ack id, .ok 1)
        else some (s, .ok 0)
  | .xautoclaim group consumer _ start count =>
    match s, StreamId.parse start with
    | some stream, some start =>
      match stream.group? group with
      | none => some (s, .error noGroup)
      | some g =>
        let scan := autoclaimScan g start choice.scan
        let claimed := scan.scanned.filter fun p =>
          choice.idle p.id && (stream.findEntry p.id).isSome
        if claimed.length ≤ count then
          some (some (stream.updateGroup group fun g =>
              (g.filterPel fun p => !(p ∈ scan.scanned && (stream.findEntry p.id).isNone)).reassign
                (fun p => p.id ∈ claimed.map Pending.id) consumer),
            .ok ⟨scan.next.format,
              claimed.filterMap fun p => (stream.findEntry p.id).map StreamEntry.reply⟩)
        else none
    | none, _ => some (s, .error noGroup)
    | some _, none => some (s, .error invalidId)
  | .xreadgroup group consumer count _ =>
    match s with
    | none => some (s, .error noGroup)
    | some stream =>
      match stream.group? group with
      | none => some (s, .error noGroup)
      | some g =>
        match stream.undelivered g count with
        | [] => some (s, .ok none)
        | new => some (some (stream.updateGroup group (stream.deliver count consumer)),
            .ok (some (new.map StreamEntry.reply)))

/-- What the client is told when a command does not come back. -/
def StreamCmd.fail (e : Error) : (c : StreamCmd) → c.Reply
  | .exist => .error e
  | .xadd .. => .error e
  | .xgroupCreate .. => .error e
  | .xinfoGroups => .error e
  | .xrange .. => .error e
  | .xpending .. => .error e
  | .xack .. => .error e
  | .xautoclaim .. => .error e
  | .xreadgroup .. => .error e

end Redis
