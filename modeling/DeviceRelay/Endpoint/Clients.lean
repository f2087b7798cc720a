import DeviceRelay.ClientId
import DeviceRelay.Frame
import DeviceRelay.Queue

/-!
# The clients of an endpoint

A table of a fixed number of slots holds the clients that an endpoint tracks. A new client takes
the first free slot; where none is free it takes the place of the client that came first, whatever
slot that one is in. A client may subscribe to camera frames, to all of them or to the next one.

* `ClientTable.insert`: the table with a client, and the client that had to go.
* `ClientTable.remove`, `find?`, `modify`: the client with an id.
* `TopicSet.wants`, `TopicSet.served`: whether a frame is for a subscriber, and what is left of the
  subscriptions afterwards.
-/

namespace DeviceRelay

/-! ## Subscriptions -/

inductive Topic where
  /-- Every camera frame. -/
  | camera
  /-- The next camera frame alone. -/
  | snapshot
  deriving DecidableEq, Repr

structure TopicSet where
  camera : Bool
  snapshot : Bool
  deriving DecidableEq, Repr

namespace TopicSet

def empty : TopicSet := ⟨false, false⟩

def contains (s : TopicSet) : Topic → Bool
  | .camera => s.camera
  | .snapshot => s.snapshot

/-- Subscribes or unsubscribes. -/
def set (s : TopicSet) (topic : Topic) (on : Bool) : TopicSet :=
  match topic with
  | .camera => { s with camera := on }
  | .snapshot => { s with snapshot := on }

/-- Whether a frame of a topic is for the subscriber: a camera frame also serves who waits for a
snapshot. -/
def wants (s : TopicSet) : Topic → Bool
  | .camera => s.camera || s.snapshot
  | .snapshot => s.snapshot

/-- What is left of the subscriptions when a frame goes out: a snapshot is served once. -/
def served (s : TopicSet) : TopicSet := { s with snapshot := false }

theorem served_of_wants_eq_false {s : TopicSet} {topic : Topic} (h : s.wants topic = false) :
    s.served = s := by
  obtain ⟨camera, snapshot⟩ := s
  cases topic <;> simp_all [wants, served]

end TopicSet

/-! ## The table -/

structure Client where
  id : ClientId
  /-- How many clients were inserted before. -/
  seq : Nat
  topics : TopicSet
  outbox : BoundedQueue Message
  deriving DecidableEq, Repr

structure ClientTable where
  slots : List (Option Client)
  /-- How many clients were ever inserted. The counter of 64 bits is taken as one that never
  overflows. -/
  nextSeq : Nat
  deriving DecidableEq, Repr

namespace ClientTable

/-- A table of so many slots, at least one. -/
def withCapacity (capacity : Nat) : ClientTable := ⟨List.replicate (max capacity 1) none, 0⟩

/-- The tracked clients, in the order of their slots. -/
def clients (t : ClientTable) : List Client := t.slots.filterMap id

def size (t : ClientTable) : Nat := t.clients.length

def ids (t : ClientTable) : List ClientId := t.clients.map Client.id

/-- The slots with a client in the first free one, none where all are taken. -/
def fillFree (c : Client) : List (Option Client) → Option (List (Option Client))
  | [] => none
  | none :: slots => some (some c :: slots)
  | some d :: slots => (fillFree c slots).map (some d :: ·)

/-- The client that came first. -/
def oldest? : List Client → Option Client
  | [] => none
  | c :: clients =>
    match oldest? clients with
    | none => some c
    | some d => some (if c.seq ≤ d.seq then c else d)

/-- The slots with `c` in the place of the client that came at `seq`. -/
def replaceAt (seq : Nat) (c : Client) (slots : List (Option Client)) : List (Option Client) :=
  slots.map fun slot => if slot.any (·.seq = seq) then some c else slot

/-- Tracks a new client, without subscriptions: the client that had to go for it, and the table. -/
def insert (t : ClientTable) (id : ClientId) (outbox : BoundedQueue Message) :
    Option Client × ClientTable :=
  let c : Client := ⟨id, t.nextSeq, .empty, outbox⟩
  match fillFree c t.slots with
  | some slots => (none, ⟨slots, t.nextSeq + 1⟩)
  | none =>
    match oldest? t.clients with
    | none => (none, { t with nextSeq := t.nextSeq + 1 })
    | some old => (some old, ⟨replaceAt old.seq c t.slots, t.nextSeq + 1⟩)

def find? (t : ClientTable) (id : ClientId) : Option Client := t.clients.find? fun c => c.id = id

/-- The slots with the first one of this id free. -/
def freeFirst (id : ClientId) : List (Option Client) → List (Option Client)
  | [] => []
  | none :: slots => none :: freeFirst id slots
  | some c :: slots => if c.id = id then none :: slots else some c :: freeFirst id slots

/-- Stops tracking a client: the client, if it was tracked, and the table. -/
def remove (t : ClientTable) (id : ClientId) : Option Client × ClientTable :=
  match t.find? id with
  | some c => (some c, { t with slots := freeFirst id t.slots })
  | none => (none, t)

/-- Changes every client. -/
def map (t : ClientTable) (f : Client → Client) : ClientTable :=
  { t with slots := t.slots.map (Option.map f) }

/-- Changes the first client with this id. -/
def modifyFirst (id : ClientId) (f : Client → Client) :
    List (Option Client) → List (Option Client)
  | [] => []
  | none :: slots => none :: modifyFirst id f slots
  | some c :: slots =>
    if c.id = id then some (f c) :: slots else some c :: modifyFirst id f slots

/-- Changes the client with this id. -/
def modify (t : ClientTable) (id : ClientId) (f : Client → Client) : ClientTable :=
  { t with slots := modifyFirst id f t.slots }

/-- The table without clients. -/
def cleared (t : ClientTable) : ClientTable := { t with slots := t.slots.map fun _ => none }

/-! ## Lemmas -/

theorem clients_withCapacity (n : Nat) : (withCapacity n).clients = [] := by
  simp [withCapacity, clients]

@[simp] theorem clients_map (t : ClientTable) (f : Client → Client) :
    (t.map f).clients = t.clients.map f := by
  simp only [clients, map, List.filterMap_map, List.map_filterMap]
  rfl

@[simp] theorem clients_cleared (t : ClientTable) : t.cleared.clients = [] := by
  simp [clients, cleared]

theorem length_slots_fillFree {c : Client} {slots filled : List (Option Client)}
    (h : fillFree c slots = some filled) : filled.length = slots.length := by
  induction slots generalizing filled with
  | nil => simp [fillFree] at h
  | cons s slots ih =>
    cases s with
    | none => simp only [fillFree, Option.some.injEq] at h; subst h; rfl
    | some d =>
      obtain ⟨rest, hr, rfl⟩ := Option.map_eq_some_iff.1 h
      simp [ih hr]

/-- The number of slots never changes. -/
theorem length_slots_insert (t : ClientTable) (id : ClientId) (q : BoundedQueue Message) :
    (t.insert id q).2.slots.length = t.slots.length := by
  unfold insert
  simp only
  split
  · exact length_slots_fillFree ‹_›
  · split
    · rfl
    · simp [replaceAt]

end ClientTable

end DeviceRelay
