import ResponsesApiStore.System.Clients

/-!
# Executing the deployment

The deployment is executable, so a concrete run can be computed and looked at. Here are the
views of a world that can be compared (`returned`, `awaits`), the checks by which the conditions
on the steps of a run are decided (`noSetEx`), and a small deployment to execute: one response,
`resp_1`, and the texts that the service reads and prints on its way through the lifecycle.
-/

namespace ResponsesApiStore

open Json (Value Serde)
open Redis (Entry Keyspace Session)
open Interaction (Machine World Label Program)

/-! ### Looking at a world -/

/-- What the call of task `i` has returned. -/
def returned (w : DWorld) (i : ℕ) : Option RpcResult := (w.tasks i).bind fun t => t.prog.result?

/-- The command the live task `i` is waiting on. -/
def awaits (w : DWorld) (i : ℕ) : Option Cmd :=
  (w.tasks i).bind fun t => if t.live then t.prog.command? else none

/-- The request of task `i`. -/
def requestOf (w : DWorld) (i : ℕ) : Option Request := (w.tasks i).map fun t => t.call.request

theorem returned_eq_some {w : DWorld} {i : ℕ} {r : RpcResult} (h : returned w i = some r) :
    ∃ t, w.tasks i = some t ∧ t.prog = .ret r := by
  obtain ⟨t, ht, hr⟩ := Option.bind_eq_some_iff.mp h
  exact ⟨t, ht, Program.result?_eq_some.mp hr⟩

theorem awaits_eq_some {w : DWorld} {i : ℕ} {c : Cmd} (h : awaits w i = some c) :
    ∃ t k, w.tasks i = some t ∧ t.live = true ∧ t.prog = .cmd c k := by
  obtain ⟨t, ht, hc⟩ := Option.bind_eq_some_iff.mp h
  split_ifs at hc with hlive
  obtain ⟨k, hk⟩ := Program.command?_eq_some.mp hc
  exact ⟨t, k, ht, hlive, hk⟩

/-- The command of a step that runs is the one awaited. -/
theorem Runs.awaits {w : DWorld} {l : DLabel} {i : ℕ} {t : DTask} {c : Cmd}
    (h : Runs w l i t c) : awaits w i = some c := by
  obtain ⟨k, hprog⟩ := h.prog
  simp [ResponsesApiStore.awaits, h.task, h.live, hprog, Program.command?]

/-- A step at which an awaited command runs. -/
theorem runs_of_awaits {w : DWorld} {i : ℕ} {c : Cmd} {choice : Choice}
    (h : awaits w i = some c) (hran : choice.delivery.ran = true) :
    ∃ t, Runs w (.act i choice) i t c := by
  obtain ⟨t, k, ht, hlive, hprog⟩ := awaits_eq_some h
  exact ⟨t, ht, hlive, ⟨k, hprog⟩, choice, rfl, hran⟩

/-! ### Checks of steps -/

/-- Nobody outside writes. -/
def noForeign (_ : DWorld) : DLabel → Bool
  | .env (.foreignSet ..) | .env (.foreignDel _) => false
  | _ => true

theorem not_foreign_of_noForeign {w : DWorld} {l : DLabel} (h : noForeign w l = true)
    (key : String) : ¬Foreign key l := by
  rintro (⟨entry, rfl⟩ | rfl) <;> cases h

/-- The step sends no `SETEX` on a shared connection, and nobody outside writes. -/
def noSetEx (w : DWorld) : DLabel → Bool
  | .act i _ => match awaits w i with
    | some (.setEx ..) => false
    | _ => true
  | .env (.foreignSet ..) | .env (.foreignDel _) => false
  | _ => true

theorem not_stores_of_noSetEx {w : DWorld} {l : DLabel} (h : noSetEx w l = true) {i : ℕ} {t : DTask}
    {key payload : String} : ¬Stores w l i t key payload := by
  rintro ⟨ttl, -, hruns⟩
  obtain ⟨choice, rfl, -⟩ := hruns.label
  simp [noSetEx, hruns.awaits] at h

theorem not_foreign_of_noSetEx {w : DWorld} {l : DLabel} (h : noSetEx w l = true) (key : String) :
    ¬Foreign key l := by
  rintro (⟨entry, rfl⟩ | rfl) <;> cases h

theorem noClientWrite_of_noSetEx {N : Type} {cfg : StoreConfig} {S : Serde N} {w : DWorld}
    {l : DLabel} (h : noSetEx w l = true) (key : String) : NoClientWrite cfg S key w l :=
  ⟨fun _ ⟨_, _, _, hstores, _⟩ => not_stores_of_noSetEx h hstores, not_foreign_of_noSetEx h key⟩

/-! ### A small deployment -/

namespace Sample

/-- The defaults of the configuration, without trimming. -/
def config : StoreConfig :=
  ⟨"responses-api-store:responses", 86400, "responses-api-store:background", 3600, 0⟩

/-- Integers for numbers, and no text at all. -/
def blank : Serde Int64 := .ofTable [] List.nodup_nil id some Serde.some_id

/-- The job as it is enqueued. -/
def queued : StoredResponse Int64 where
  upstream := "openai"
  response := .ofFields [("id", .str "resp_1"), ("status", .str "queued")]
  input := []
  pendingUpstreamRequest := some (.ofFields [("model", .str "m")])
  upstreamAuthorization := none
  enqueuedAt := some 100

/-- The job with another response and without its request. -/
def finished (response : Value Int64) : StoredResponse Int64 :=
  { queued with response, pendingUpstreamRequest := none }

def claimedResponse : Value Int64 :=
  .ofFields [("background", .ofBool true), ("id", .str "resp_1"), ("status", .str "in_progress")]

def completedResponse : Value Int64 :=
  .ofFields [("background", .ofBool true), ("id", .str "resp_1"), ("status", .str "completed")]

def queuedText : String :=
  "\x7b\"upstream\":\"openai\",\"response\":\x7b\"id\":\"resp_1\",\"status\":\"queued\"\x7d," ++
    "\"input\":[],\"pending_upstream_request\":\x7b\"model\":\"m\"\x7d,\"enqueued_at\":100\x7d"

def claimedText : String :=
  "\x7b\"upstream\":\"openai\",\"response\":\x7b\"background\":true,\"id\":\"resp_1\"," ++
    "\"status\":\"in_progress\"\x7d,\"input\":[],\"pending_upstream_request\":\x7b\"model\":" ++
    "\"m\"\x7d,\"enqueued_at\":100\x7d"

def completedText : String :=
  "\x7b\"upstream\":\"openai\",\"response\":\x7b\"background\":true,\"id\":\"resp_1\"," ++
    "\"status\":\"completed\"\x7d,\"input\":[],\"enqueued_at\":100\x7d"

def tombstoneText : String :=
  "\x7b\"upstream\":\"openai\",\"response\":\x7b\"background\":true,\"deleted\":true," ++
    "\"id\":\"resp_1\",\"object\":\"response\",\"status\":\"deleted\"\x7d,\"input\":[]," ++
    "\"enqueued_at\":100\x7d"

/-- The documents of the small deployment and their texts. -/
def table : List (Json Int64 × String) :=
  [(queued.toTree blank, queuedText),
    ({ queued with response := claimedResponse }.toTree blank, claimedText),
    ((finished completedResponse).toTree blank, completedText),
    ((tombstoneOf queued "resp_1").toTree blank, tombstoneText),
    (queued.response.1, "\x7b\"id\":\"resp_1\",\"status\":\"queued\"\x7d"),
    (claimedResponse.1,
      "\x7b\"background\":true,\"id\":\"resp_1\",\"status\":\"in_progress\"\x7d"),
    (completedResponse.1,
      "\x7b\"background\":true,\"id\":\"resp_1\",\"status\":\"completed\"\x7d"),
    ((tombstoneOf queued "resp_1").response.1, "\x7b\"background\":true,\"deleted\":true," ++
      "\"id\":\"resp_1\",\"object\":\"response\",\"status\":\"deleted\"\x7d"),
    (.object [("model", .string "m")], "\x7b\"model\":\"m\"\x7d"),
    (.object [], "\x7b\x7d")]

/-- The codec of the small deployment. -/
def serde : Serde Int64 := .ofTable table (by decide +kernel) id some Serde.some_id

theorem ofText_queuedText : StoredResponse.ofText serde queuedText = .ok queued := by
  decide +kernel

theorem ofText_completedText :
    StoredResponse.ofText serde completedText = .ok (finished completedResponse) := by
  decide +kernel

/-- The small deployment. -/
abbrev machine : Machine sig Shared Call RpcResult Choice Env := deployment config serde 8

/-- The key of the response. -/
def key : String := ResponseStore.key config "resp_1"

/-- A world without tasks, in which the key holds `text`. -/
def start (text : Option String) : DWorld where
  shared :=
    { db := ⟨fun k => if k = key then text.map fun text => ⟨text, some 600⟩ else none,
        fun _ => .fresh⟩
      cursors := fun _ => none
      stream := none
      clock := 200
      holder := fun _ => none
      capabilities := fun _ => none }
  tasks := fun _ => none

theorem textAt_start (text : Option String) : (start text).shared.textAt key = text := by
  cases text <;> simp [start, Shared.textAt, Redis.Keyspace.textAt]

theorem initial_start (text : Option String) : Initial (start text) := ⟨fun _ => rfl, fun _ => rfl⟩

/-- The step is answered. -/
def answered : Choice := ⟨.replied, ⟨.zero, 0, 0, fun _ => false, false⟩, "redis_version:7.2.4"⟩

/-- The step is answered; if it is an `XADD`, the entry is `5-3`. -/
def published : Choice := { answered with stream := { answered.stream with id := ⟨5, 3⟩ } }

/-- The step is executed, but its reply is lost. -/
def lost : Choice := { answered with delivery := .failed (.reply "broken pipe") true false }

/-- The step is not executed. -/
def refused : Choice := { answered with delivery := .failed (.reply "broken pipe") false false }

/-- The next `n` commands of task `i` are answered. -/
def turns (i n : ℕ) : List DLabel := List.replicate n (.act i answered)

/-- A call for `request` to server `0`, of which the first `n` commands are answered. -/
def call (i : ℕ) (request : Request) (n : ℕ) : List DLabel := .spawn i ⟨0, request⟩ :: turns i n

/-- The queued record as a client sends it, and as it is handed out. -/
def queuedRecord : ProtoStoredResponse :=
  ⟨"resp_1", "openai", "\x7b\"id\":\"resp_1\",\"status\":\"queued\"\x7d", [],
    some "\x7b\"model\":\"m\"\x7d", none, some 100⟩

/-- The job is stored and published. -/
def enqueue : List DLabel :=
  .env (.clock 100) :: .spawn 1 ⟨0, .enqueueBackgroundJob (some queuedRecord)⟩ ::
    List.replicate 3 (.act 1 published)

/-! ### A number that does not read back -/

/-- Numbers of a document: integers, and floats by their shortest text. -/
inductive JsonNumber
  | int (n : Int64)
  | float (shortest : String)
  deriving DecidableEq

def JsonNumber.asI64 : JsonNumber → Option Int64
  | .int n => some n
  | .float _ => none

/-- Without exact parsing the reader takes the float that is printed as `51.248178375505404` for the
next one: the digits are rounded to a multiple of eight before they are divided by `10^15`. -/
def JsonNumber.reread : JsonNumber → JsonNumber
  | .float "51.248178375505404" => .float "51.24817837550541"
  | n => n

/-- Both floats, the one that is written and the one that is read. -/
def written : JsonNumber := .float "51.248178375505404"

def misread : JsonNumber := .float "51.24817837550541"

def queuedResponse : Value JsonNumber :=
  .ofFields [("id", .str "resp_1"), ("status", .str "queued")]

def inProgressResponse : Value JsonNumber :=
  .ofFields [("background", .ofBool true), ("id", .str "resp_1"), ("status", .str "in_progress")]

/-- A job whose input and request contain the number `x`. -/
def numberJob (response : Value JsonNumber) (x : JsonNumber) : StoredResponse JsonNumber where
  upstream := "openai"
  response := response
  input := [.ofTree (.number x)]
  pendingUpstreamRequest := some (.ofFields [("temperature", .ofTree (.number x))])
  upstreamAuthorization := none
  enqueuedAt := some 100

def numberText (response x : String) : String :=
  "\x7b\"upstream\":\"openai\",\"response\":" ++ response ++ ",\"input\":[" ++ x ++
    "],\"pending_upstream_request\":\x7b\"temperature\":" ++ x ++ "\x7d,\"enqueued_at\":100\x7d"

def queuedResponseText : String := "\x7b\"id\":\"resp_1\",\"status\":\"queued\"\x7d"

def inProgressResponseText : String :=
  "\x7b\"background\":true,\"id\":\"resp_1\",\"status\":\"in_progress\"\x7d"

/-- The record as it is stored, and as the claim that has read it stores it again. -/
def numberQueuedText : String := numberText queuedResponseText "51.248178375505404"

def numberClaimedText : String := numberText inProgressResponseText "51.24817837550541"

/-- The codec of integers without any text. -/
def blankNumbers : Serde JsonNumber :=
  .ofTableRereading [] [] List.nodup_nil JsonNumber.int JsonNumber.asI64 (fun _ => rfl)
    JsonNumber.reread fun _ => rfl

/-- The documents of the job and their texts; the client spells its number with more digits. -/
def numberSerde : Serde JsonNumber :=
  .ofTableRereading
    [((numberJob queuedResponse written).toTree blankNumbers, numberQueuedText),
      ((numberJob inProgressResponse misread).toTree blankNumbers, numberClaimedText),
      (queuedResponse.1, queuedResponseText), (inProgressResponse.1, inProgressResponseText),
      (.number misread, "51.24817837550541"),
      (.object [("temperature", .number misread)], "\x7b\"temperature\":51.24817837550541\x7d")]
    [(.number written, "51.2481783755054039"),
      (.object [("temperature", .number written)], "\x7b\"temperature\":51.2481783755054039\x7d")]
    (by decide +kernel) JsonNumber.int JsonNumber.asI64 (fun _ => rfl) JsonNumber.reread
    fun _ => rfl

/-- The job as a client sends it. -/
def numberRecord : ProtoStoredResponse :=
  ⟨"resp_1", "openai", queuedResponseText, ["51.2481783755054039"],
    some "\x7b\"temperature\":51.2481783755054039\x7d", none, none⟩

/-- After its store the job is published and claimed. -/
def publishAndClaim : List DLabel :=
  .act 1 published :: call 2 (.claimBackgroundResponse "resp_1") 9

set_option maxRecDepth 100000 in
/-- An enqueue is about to store the job; the job it stores is claimed. -/
def numberEnqueued : (deployment config numberSerde 8).Recording noSetEx (start none) (fun x =>
    requestOf x 1 = some (.enqueueBackgroundJob (some numberRecord)) ∧
    awaits x 1 = some (.setEx key 86400 numberQueuedText) ∧
    ((((deployment config numberSerde 8).step x (.act 1 published)).bind fun y =>
      (deployment config numberSerde 8).execIn? noSetEx y publishAndClaim).any
        (fun z => z.shared.textAt key = some numberClaimedText ∧
          (returned z 2).any Except.isOk) = true)) :=
  ⟨.env (.clock 100) :: .spawn 1 ⟨0, .enqueueBackgroundJob (some numberRecord)⟩ ::
    [.act 1 published], by decide +kernel⟩

/-- A client stores the job with the number it has sent; the claim that has read it stores it with
another. -/
theorem number_drifts : ∃ a x y b z record,
    (deployment config numberSerde 8).RunIn (NoClientWrite config numberSerde key)
    (start none) a x ∧
    ClientStores config numberSerde x (.act 1 published) key record ∧
    (deployment config numberSerde 8).step x (.act 1 published) = some y ∧
    (deployment config numberSerde 8).RunIn (NoClientWrite config numberSerde key) y b z ∧
    record.dropNull = numberJob queuedResponse written ∧
    z.shared.textAt key = some numberClaimedText := by
  have hcheck : ∀ w l, noSetEx w l = true → NoClientWrite config numberSerde key w l :=
    fun w l h => noClientWrite_of_noSetEx h key
  obtain ⟨x, ha, hrequest, hawaits, hrest⟩ := numberEnqueued.exists_runIn hcheck
  obtain ⟨z, hz, hafter⟩ := (Option.any_eq_true _ _).mp hrest
  obtain ⟨y, hstep, hz⟩ := Option.bind_eq_some_iff.mp hz
  obtain ⟨t, hruns⟩ := runs_of_awaits hawaits (show published.delivery.ran = true from rfl)
  obtain ⟨-, -, record, hpayload, hwrites⟩ :=
    (sound_of_run (initial_start none) ha).allowed hruns
  have hclient : ClientStores config numberSerde x (.act 1 published) key record := by
    rcases hwrites.client_or_tombstone with hclient | ⟨id, stored, hdelete, -⟩
    · exact ⟨1, t, _, ⟨_, by decide, hruns⟩, hpayload, hclient⟩
    · simp [requestOf, hruns.task, hdelete] at hrequest
  have hprinted : (numberJob queuedResponse written).toText numberSerde = .ok numberQueuedText := by
    decide +kernel
  have hrecord : record.dropNull = (numberJob queuedResponse written).dropNull :=
    StoredResponse.dropNull_eq_of_toText hpayload hprinted
  exact ⟨_, x, y, _, z, record, ha, hclient, hstep, Machine.runIn_of_execIn? hcheck hz, hrecord,
    (of_decide_eq_true hafter).1⟩

end Sample

end ResponsesApiStore
