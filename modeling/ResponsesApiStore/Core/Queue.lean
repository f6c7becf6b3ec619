import ResponsesApiStore.Core.Store

/-!
# The background queue

The procedures of `BackgroundQueue`: publishing to the stream, claiming a batch for a consumer
(first what other consumers left idle, then new entries), acknowledging, and the statistics.

The statistics count by paging through `XRANGE` and `XPENDING` with loops that end only when a
short page comes back. Both loops are `countPages`, which is given fuel; a page number that
runs out of it ends in `Fault.outOfFuel`, a result the source does not have.

Sequence arithmetic on identifiers is the wrapping one of a release build.
-/

namespace ResponsesApiStore

open Json (Serde)
open Redis (Error EntryReply GroupInfo AutoclaimReply)
open Interaction (Program)

variable {N : Type}

/-! ### Identifiers as the client reads them -/

/-- `str::parse::<u64>`: decimal digits, a leading `+` allowed. -/
def parseU64 (cs : List Char) : Option UInt64 :=
  match cs with
  | '+' :: cs => Redis.digits64 cs
  | cs => Redis.digits64 cs

def parseStreamId (streamId : String) : Option (UInt64 × UInt64) :=
  match Redis.splitOnce '-' streamId.toList with
  | none => none
  | some (ms, seq) =>
    match parseU64 ms, parseU64 seq with
    | some ms, some seq => some (ms, seq)
    | _, _ => none

/-- The addition wraps, as in the release build that is shipped: a build with overflow checks
panics at a sequence number of `2 ^ 64 - 1`. -/
def streamIdAfter (streamId : String) : Option String :=
  (parseStreamId streamId).map fun p => p.1.toNat.repr ++ "-" ++ (p.2 + 1).toNat.repr

def streamRangeStartAfter (streamId : String) (exclusiveRangeSupported afterDelivered : Bool) :
    String :=
  if !afterDelivered && (streamId = "0-0" || streamId = "-") then "-"
  else if exclusiveRangeSupported then "(" ++ streamId
  else (streamIdAfter streamId).getD streamId

def streamIdLessThan (left right : String) : Bool :=
  match parseStreamId left, parseStreamId right with
  | some (leftMs, leftSeq), some (rightMs, rightSeq) =>
    leftMs < rightMs || (leftMs = rightMs && leftSeq < rightSeq)
  | _, _ => false

def isTombstonedPelEntry (entryId : String) (minStreamId : Option String) : Bool :=
  match minStreamId with
  | none => true
  | some minStreamId => streamIdLessThan entryId minStreamId

def isBusygroup (err : Error) : Bool := containsText err.message "BUSYGROUP"

def isMissingStream (err : Error) : Bool := containsText err.message "no such key"

/-! ### Batches -/

structure ClaimOptions where
  consumerGroup : String
  consumerName : String
  count : ℕ
  blockMs : ℕ
  autoclaimMinIdleMs : ℕ

structure ClaimBatchResult (N : Type) where
  jobs : List (BackgroundJob N)
  pendingStreamIds : List String
  pendingJobs : List PendingBackgroundJob
  deriving DecidableEq

namespace ClaimBatchResult

def empty : ClaimBatchResult N := ⟨[], [], []⟩

/-- Append the jobs of a second batch. -/
def extend (result batch : ClaimBatchResult N) : ClaimBatchResult N :=
  ⟨result.jobs ++ batch.jobs, result.pendingStreamIds ++ batch.pendingStreamIds,
    result.pendingJobs ++ batch.pendingJobs⟩

def hasClaimedEntries (result : ClaimBatchResult N) : Bool :=
  !result.jobs.isEmpty || !result.pendingJobs.isEmpty

end ClaimBatchResult

structure BackgroundQueueStats where
  pending : UInt64
  inProgress : UInt64
  workload : UInt64
  deriving DecidableEq, Repr

namespace BackgroundQueue

variable (cfg : StoreConfig) (S : Serde N)

/-! ### Publishing, groups and acknowledgements -/

def enqueue (responseId : String) : Act Unit :=
  let maxlen := if 0 < cfg.streamMaxlen then some cfg.streamMaxlen else none
  storage (send (.stream (.xadd maxlen [("response_id", responseId)])))

def ensureConsumerGroup (consumerGroup startId : String) : Act Bool := do
  match ← outcome (storage (send (.stream (.xgroupCreate consumerGroup startId)))) with
  | .ok _ => return true
  | .error (.error (.storage err)) =>
    if isBusygroup err then return false else raise (.storage err)
  | .error fault => throw fault

def acknowledge (consumerGroup streamId : String) : Act Unit := do
  let acked ← storage (send (.stream (.xack consumerGroup streamId)))
  if acked = 0 then
    raise (.invalidArgument ("stream entry " ++ streamId ++
      " was not acknowledged for consumer group " ++ consumerGroup))
  else return ()

/-! ### The autoclaim cursor -/

/-- The double nearest to a natural number, ties to even. -/
def roundDouble (n : ℕ) : ℕ :=
  if n < 2 ^ 53 then n
  else
    let unit := 2 ^ (n.log2 - 52)
    let q := n / unit
    let r := n % unit
    if unit < 2 * r ∨ (2 * r = unit ∧ q % 2 = 1) then (q + 1) * unit else q * unit

/-- `tonumber` of the script on a decimal numeral; on anything else no number. -/
def luaNumber (cs : List Char) : Option ℕ := (Redis.digits cs).map roundDouble

/-- `split_id` of the script. -/
def luaSplitId (id : String) : Option ℕ × Option ℕ :=
  match Redis.splitOnce '-' id.toList with
  | none => (luaNumber id.toList, some 0)
  | some (ms, seq) => (luaNumber ms, luaNumber seq)

/-- Comparing with a missing number ends the script. -/
def luaCompareError : Error := .reply "attempt to compare nil with number"

/-- The cursor script: the cursor stored at the end, or the error it stops with. -/
def autoclaimCursorScript (oldCursor : Option String) (newCursor : String) :
    Except Error (Option String) :=
  match decide (newCursor = "0-0"), oldCursor with
  | true, _ | false, none => .ok (some newCursor)
  | false, some oldCursor =>
    let (newMs, newSeq) := luaSplitId newCursor
    let (oldMs, oldSeq) := luaSplitId oldCursor
    match newMs, oldMs with
    | some newMs, some oldMs =>
      if oldMs < newMs then .ok (some newCursor)
      else if newMs = oldMs then
        match newSeq, oldSeq with
        | some newSeq, some oldSeq =>
          .ok (some (if oldSeq < newSeq then newCursor else oldCursor))
        | _, _ => .error luaCompareError
      else .ok (some oldCursor)
    | _, _ => .error luaCompareError

def getAutoclaimCursor (consumerGroup : String) : Act String := do
  let cursor ← storage (send (.getCursor (autoclaimCursorKey cfg.streamKey consumerGroup)))
  return cursor.getD "0-0"

def setAutoclaimCursor (consumerGroup cursor : String) : Act Unit :=
  storage (send (.cursorScript (autoclaimCursorKey cfg.streamKey consumerGroup) cursor))

/-! ### Claiming a batch -/

def loadRetryAttempts : ℕ := 3

/-- The attempts left to load a record; only storage errors are retried. -/
def loadAttempts (responseId : String) : ℕ → Act (Option (StoredResponse N))
  | 0 => throw (.panic "storage error after retries")
  | left + 1 => do
    match ← outcome (ResponseStore.load cfg S responseId) with
    | .ok record => return record
    | .error (.error (.storage err)) =>
      if left = 0 then raise (.storage err)
      else
        ask .sleep
        loadAttempts responseId left
    | .error fault => throw fault

def loadWithRetries (responseId : String) : Act (Option (StoredResponse N)) :=
  loadAttempts cfg S responseId loadRetryAttempts

/-- The value of a field of an entry; of a field that is repeated, the last. -/
def entryField (entry : EntryReply) (name : String) : Option String :=
  (entry.fields.reverse.find? fun f => f.1 = name).map Prod.snd

@[simp]
theorem entryField_singleton (id field value name : String) :
    entryField ⟨id, [(field, value)]⟩ name = if field = name then some value else none := by
  rw [entryField, List.reverse_singleton, List.find?_singleton]
  split_ifs <;> simp_all

/-- Load the record of every entry; an entry whose record is gone or cannot be read is
acknowledged and dropped, one whose record cannot be reached is kept for later. -/
def jobsFromStreamIds (consumerGroup : String) (autoclaimed : Bool) (idleMs : Option ℕ) :
    List EntryReply → ClaimBatchResult N → Act (ClaimBatchResult N)
  | [], batch => return batch
  | entry :: entries, batch => do
    match entryField entry "response_id" with
    | none => jobsFromStreamIds consumerGroup autoclaimed idleMs entries batch
    | some responseId =>
      match ← outcome (loadWithRetries cfg S responseId) with
      | .ok (some record) =>
        jobsFromStreamIds consumerGroup autoclaimed idleMs entries
          { batch with jobs := batch.jobs ++ [⟨entry.id, responseId, record, autoclaimed, idleMs⟩] }
      | .ok none | .error (.error (.serialization _)) =>
        let _ ← outcome (acknowledge consumerGroup entry.id)
        jobsFromStreamIds consumerGroup autoclaimed idleMs entries batch
      | .error (.error (.storage _)) =>
        jobsFromStreamIds consumerGroup autoclaimed idleMs entries
          { batch with
            pendingStreamIds := batch.pendingStreamIds ++ [entry.id]
            pendingJobs := batch.pendingJobs ++ [⟨entry.id, responseId, autoclaimed, idleMs⟩] }
      | .error fault => throw fault

def autoclaim (consumerGroup consumerName : String) (minIdleMs : ℕ) (cursor : String)
    (count : ℕ) : Act AutoclaimReply :=
  storage (send (.stream (.xautoclaim consumerGroup consumerName minIdleMs cursor count)))

/-- Read new entries; a blocking read opens a connection of its own. -/
def readGroup (consumerGroup consumerName : String) (count blockMs : ℕ) :
    Act (List EntryReply) := do
  if blockMs = 0 then
    let replies ← storage (send (.stream (.xreadgroup consumerGroup consumerName count none)))
    return replies.getD []
  else
    storage (send .openBlocking)
    let replies ←
      storage (send (.stream (.xreadgroup consumerGroup consumerName count (some blockMs))))
    return replies.getD []

/-- The first half of a claim: take over idle entries from the cursor on. -/
def claimIdle (options : ClaimOptions) (cursor : String) : Act (ClaimBatchResult N × String) := do
  if 0 < options.autoclaimMinIdleMs ∧ 0 < options.count then
    let reply ← autoclaim options.consumerGroup options.consumerName options.autoclaimMinIdleMs
      cursor options.count
    let batch ← jobsFromStreamIds cfg S options.consumerGroup true
      (some options.autoclaimMinIdleMs) reply.claimed .empty
    return (batch, reply.nextStreamId)
  else return (.empty, cursor)

/-- The second half: fill up with new entries; once something was claimed, no error of this
half is reported. -/
def claimNew (options : ClaimOptions) (result : ClaimBatchResult N) :
    Act (ClaimBatchResult N) := do
  let remaining := options.count - (result.jobs.length + result.pendingJobs.length)
  if 0 < remaining then
    let fillBlockMs := if result.hasClaimedEntries then 0 else options.blockMs
    match ← outcome (readGroup options.consumerGroup options.consumerName remaining
        fillBlockMs) with
    | .error (.error err) => if result.hasClaimedEntries then return result else raise err
    | .error fault => throw fault
    | .ok ids =>
      match ← outcome (jobsFromStreamIds cfg S options.consumerGroup false none ids .empty) with
      | .ok batch => return result.extend batch
      | .error (.error err) => if result.hasClaimedEntries then return result else raise err
      | .error fault => throw fault
  else return result

/-- Claim a batch from the autoclaim cursor on; the batch and the cursor to continue from. -/
def claimJobs (options : ClaimOptions) (autoclaimCursor : String) :
    Act (ClaimBatchResult N × String) := do
  let (result, cursor) ← claimIdle cfg S options autoclaimCursor
  let result ← claimNew cfg S options result
  return (result, cursor)

/-! ### Statistics -/

/-- Count page by page: `query` reads the page from a start on, `weigh` says what a page
contributes, and a page shorter than `pageSize` is the last. -/
def countPages (pageSize : ℕ) (exclusiveRangeSupported : Bool)
    (query : String → Act (List String)) (weigh : List String → UInt64) :
    ℕ → String → UInt64 → Act UInt64
  | 0, _, _ => throw .outOfFuel
  | fuel + 1, start, total => do
    let ids ← query start
    match ids.getLast? with
    | none => return total
    | some lastId =>
      let total := total + weigh ids
      if ids.length < pageSize then return total
      else
        countPages pageSize exclusiveRangeSupported query weigh fuel
          (streamRangeStartAfter lastId exclusiveRangeSupported true) total

def countPendingFallback (fuel : ℕ) (lastDeliveredId : String) (exclusiveRangeSupported : Bool) :
    Act UInt64 :=
  countPages 1000 exclusiveRangeSupported
    (fun start => do
      let ids ← storage (send (.stream (.xrange start "+" 1000)))
      return ids.map EntryReply.id)
    (fun ids => UInt64.ofNat ids.length) fuel
    (streamRangeStartAfter lastDeliveredId exclusiveRangeSupported false) 0

def getStreamMinId : Act (Option String) := do
  let ids ← storage (send (.stream (.xrange "-" "+" 1)))
  return ids.head?.map EntryReply.id

def countProcessableInProgress (fuel : ℕ) (consumerGroup : String)
    (exclusiveRangeSupported : Bool) : Act UInt64 := do
  let minId ← getStreamMinId
  countPages 100 exclusiveRangeSupported
    (fun start => storage (send (.stream (.xpending consumerGroup start "+" 100))))
    (fun ids => UInt64.ofNat (ids.filter fun id => !isTombstonedPelEntry id minId).length) fuel
    "-" 0

/-- Unsigned addition that stops at the largest value. -/
def saturatingAdd (a b : UInt64) : UInt64 :=
  if a.toNat + b.toNat < 2 ^ 64 then a + b else UInt64.ofNat (2 ^ 64 - 1)

def statsFromGroup (fuel : ℕ) (consumerGroup : String) (group : GroupInfo)
    (exclusiveRangeSupported : Bool) : Act BackgroundQueueStats := do
  let pending ← match group.lag with
    | some lag => pure (UInt64.ofNat lag)
    | none => countPendingFallback fuel group.lastDeliveredId exclusiveRangeSupported
  let inProgress ← countProcessableInProgress fuel consumerGroup exclusiveRangeSupported
  return ⟨pending, inProgress, saturatingAdd pending inProgress⟩

def loadStreamGroups : Act (List GroupInfo) := do
  match ← outcome (storage (send (.stream .xinfoGroups))) with
  | .ok info => return info
  | .error (.error (.storage err)) =>
    if isMissingStream err then return [] else raise (.storage err)
  | .error fault => throw fault

def findGroup (info : List GroupInfo) (consumerGroup : String) : Option GroupInfo :=
  info.find? fun group => group.name = consumerGroup

/-- The groups of the stream; a stream without any is given the one asked for. -/
def groupsForStats (consumerGroup : String) : Act (List GroupInfo) := do
  let info ← loadStreamGroups
  if (findGroup info consumerGroup).isNone && info.isEmpty then
    let _ ← ensureConsumerGroup consumerGroup "0-0"
    loadStreamGroups
  else return info

def stats (fuel : ℕ) (consumerGroup : String) : Act BackgroundQueueStats := do
  if !(← storage (send (.stream .exist))) then return ⟨0, 0, 0⟩
  else
    let info ← groupsForStats consumerGroup
    match findGroup info consumerGroup with
    | none => raise (.notFound ("consumer group " ++ consumerGroup ++
        " not found for stream " ++ cfg.streamKey))
    | some group =>
      let capabilities ← storage (send .capabilities)
      statsFromGroup fuel consumerGroup group capabilities.exclusiveRangeSupported

end BackgroundQueue

end ResponsesApiStore
