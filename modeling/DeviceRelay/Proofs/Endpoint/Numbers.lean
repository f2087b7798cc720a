import DeviceRelay.Proofs.Endpoint.Roster

/-!
# Ids that come round

Ids are numbers of 32 bits, counted up from one, and after the last of them the count starts again.
A client that is still tracked then keeps its id, and the count does not look who is tracked. So an
id is given a second time after all the others, to whoever comes then.

* `ClientId.nth`: the id of the client that came after so many others.
* `Endpoint.Numbered`, `Endpoint.numbered_course`: how clients are numbered, however many come.
* `Endpoint.accept_fresh_iff`: when the id of a new client is not in use.
* `Endpoint.fresh_id_in_use`: an id that is.
-/

namespace DeviceRelay

namespace ClientId

/-- How many ids there are for local clients: all but zero and that of the tunnel. -/
def localCount : Nat := UInt32.size - 2

/-- The id of the client that came after `n` others. -/
def nth (n : Nat) : ClientId := ⟨UInt32.ofNat (n % localCount + 1)⟩

theorem number_nth (n : Nat) : (nth n).number.toNat = n % localCount + 1 := by
  have hlt : n % localCount < localCount := Nat.mod_lt n (by decide)
  have hcount : localCount + 2 = UInt32.size := rfl
  exact UInt32.toNat_ofNat_of_lt' (by omega)

theorem nth_ne_zero (n : Nat) : (nth n).number ≠ 0 := by
  intro h
  have hnumber := number_nth n
  rw [h] at hnumber
  cases hnumber

theorem isTunnel_nth (n : Nat) : (nth n).isTunnel = false := by
  have hlt : n % localCount < localCount := Nat.mod_lt n (by decide)
  rw [isTunnel, decide_eq_false_iff_not]
  intro h
  have hnumber := number_nth n
  rw [h, show tunnel.number.toNat = localCount + 1 from rfl] at hnumber
  omega

/-- Two clients have one id exactly where all ids were given between them, so many times over. -/
theorem nth_eq_nth_iff {m n : Nat} (h : m ≤ n) : nth m = nth n ↔ localCount ∣ n - m := by
  have hmod : nth m = nth n ↔ m % localCount = n % localCount := by
    constructor
    · intro heq
      have hnumber := number_nth m
      rw [heq, number_nth] at hnumber
      omega
    · exact fun heq => congrArg (fun k => ClientId.mk (UInt32.ofNat (k + 1))) heq
  have hcount : localCount = 4294967294 := rfl
  rw [hmod, hcount]
  omega

end ClientId

namespace Endpoint

open ClientId (nth localCount)

/-! ## Counting -/

/-- After the last id comes the first. -/
theorem allocateId_nth_succ (n : Nat) : (allocateId ((nth n).number + 1)).1 = nth (n + 1) := by
  have hcount : localCount = 4294967294 := rfl
  have hnumber := ClientId.number_nth n
  have hsucc := ClientId.number_nth (n + 1)
  rw [hcount] at hnumber hsucc
  have hnext : ((nth n).number + 1).toNat = n % 4294967294 + 2 := by
    rw [UInt32.toNat_add, hnumber, show (1 : UInt32).toNat = 1 from rfl]
    omega
  refine congrArg ClientId.mk (UInt32.toNat_inj.mp (Eq.trans ?_ hsucc.symm))
  split
  case isTrue h =>
    rw [show (1 : UInt32).toNat = 1 from rfl]
    rcases h with h | h
    · rw [h, show ClientId.tunnel.number.toNat = 4294967295 from rfl] at hnext
      omega
    · rw [h] at hnext
      cases hnext
  case isFalse h =>
    have hlast : n % 4294967294 + 2 ≠ 4294967295 := by
      intro hlast
      exact h (.inl (UInt32.toNat_inj.mp (hnext.trans hlast)))
    omega

/-! ## Who is tracked -/

section Retains

variable {e e' e'' : Endpoint}

/-- Nobody came, and whoever is tracked was tracked before. -/
structure Retains (e e' : Endpoint) : Prop where
  nextId : e'.nextId = e.nextId
  nextSeq : e'.table.nextSeq = e.table.nextSeq
  tags : e'.table.tags ⊆ e.table.tags

theorem Retains.trans (h : Retains e e') (h' : Retains e' e'') : Retains e e'' :=
  ⟨h'.nextId.trans h.nextId, h'.nextSeq.trans h.nextSeq, List.Subset.trans h'.tags h.tags⟩

theorem Keeps.retains (h : Keeps e e') : Retains e e' :=
  ⟨h.nextId, h.nextSeq, h.tags ▸ List.Subset.refl _⟩

theorem Departs.retains {expelled : Bool} {gone : List ClientId}
    (h : Departs expelled gone e e') : Retains e e' :=
  ⟨h.nextId, h.nextSeq, h.tags ▸ List.filter_subset_self _⟩

theorem retains_release (e : Endpoint) (id : ClientId) : Retains e (e.release id).2 := by
  cases h : e.table.find? id with
  | none =>
    rw [release_of_not_mem (ClientTable.find?_eq_none_iff.mp h)]
    exact (Keeps.refl e).retains
  | some c =>
    rw [release_of_find? h]
    exact ⟨rfl, ClientTable.nextSeq_remove e.table id, ClientTable.tags_remove_subset e.table id⟩

theorem retains_releaseAll (e : Endpoint) (ids : List ClientId) :
    Retains e (e.releaseAll ids).2 := by
  rw [releaseAll_snd]
  induction ids generalizing e with
  | nil => exact (Keeps.refl e).retains
  | cons id ids ih => exact (retains_release e id).trans (ih _)

/-- Nobody comes unless it is by an admission, also where an id is held by two clients. -/
theorem leaving_retains (e : Endpoint) : Leaving Retains e where
  keeps := Keeps.retains
  andKeeps h h' := h.trans h'.retains
  release := retains_release e
  fanOut wanted m := by
    have hkeeps := keeps_map e (f := fun c =>
      if wanted c then { c with outbox := (c.outbox.push m).2 } else c) fun c => by split <;> rfl
    exact hkeeps.retains.trans (retains_releaseAll _ _)

theorem retains_apply (e : Endpoint) {c : Call} (h : ∀ outbox, c ≠ .accept outbox) :
    Retains e (e.apply c) := by
  cases hc : c.expels with
  | false =>
    obtain ⟨e', he', heq⟩ := (leaving_retains e).apply hc
    rw [heq]
    exact ⟨he'.nextId, he'.nextSeq, he'.tags⟩
  | true =>
    cases c with
    | accept outbox => exact absurd rfl (h outbox)
    | closeAll => exact (departs_closeAll e).retains
    | _ => cases hc

end Retains

/-! ## Numbers -/

/-- How the clients of an endpoint are numbered, be they tracked or not. -/
structure Numbered (s : Course) : Prop where
  next : (allocateId s.endpoint.nextId).1 = nth s.admitted.length
  nextSeq : s.endpoint.table.nextSeq = s.admitted.length
  admitted : s.admitted = (List.range s.admitted.length).map nth
  /-- A tracked client knows how many came before it. -/
  tagged : ∀ tag ∈ s.endpoint.table.tags, s.admitted[tag.2]? = some tag.1

namespace Numbered

variable {s : Course}

theorem accept (h : Numbered s) (outbox : BoundedQueue Message) :
    Numbered (s.next (.accept outbox)) := by
  have hid : (s.endpoint.accept outbox).1 = nth s.admitted.length := h.next
  have hadmitted : (s.next (.accept outbox)).admitted = s.admitted ++ [nth s.admitted.length] :=
    congrArg (s.admitted ++ [·]) hid
  have hendpoint : (s.next (.accept outbox)).endpoint = (s.endpoint.accept outbox).2 := rfl
  rw [accept_snd, hid] at hendpoint
  have hnextId : (allocateId s.endpoint.nextId).2 = (nth s.admitted.length).number + 1 :=
    congrArg (fun id => id.number + 1) h.next
  refine ⟨?_, ?_, ?_, ?_⟩
  · rw [hadmitted, hendpoint, List.length_append]
    exact hnextId ▸ allocateId_nth_succ s.admitted.length
  · rw [hadmitted, hendpoint, List.length_append]
    exact (ClientTable.nextSeq_insert _ _ _).trans (congrArg (· + 1) h.nextSeq)
  · rw [hadmitted, List.length_append, List.length_singleton, List.range_succ, List.map_append,
      ← h.admitted]
    rfl
  · intro tag htag
    rw [hendpoint] at htag
    rw [hadmitted]
    rcases List.mem_cons.mp (ClientTable.tags_insert_subset _ _ _ htag) with rfl | hold
    · simp [h.nextSeq]
    · have hget := h.tagged tag hold
      exact (List.getElem?_append_left (List.getElem?_eq_some_iff.mp hget).1).trans hget

/-- **Clients that are numbered are so after one more call.** -/
theorem next_call (h : Numbered s) (c : Call) : Numbered (s.next c) := by
  by_cases hc : ∃ outbox, c = .accept outbox
  · obtain ⟨outbox, rfl⟩ := hc
    exact h.accept outbox
  · have hkept := retains_apply s.endpoint fun outbox heq => hc ⟨outbox, heq⟩
    have hnobody : s.endpoint.arrivals c = [] := by
      cases c with
      | accept outbox => exact absurd ⟨outbox, rfl⟩ hc
      | _ => rfl
    have hadmitted : (s.next c).admitted = s.admitted := by
      rw [Course.next, hnobody, List.append_nil]
    refine ⟨?_, ?_, ?_, ?_⟩ <;> rw [hadmitted]
    · exact (congrArg (fun next => (allocateId next).1) hkept.nextId).trans h.next
    · exact hkept.nextSeq.trans h.nextSeq
    · exact h.admitted
    · exact fun tag htag => h.tagged tag (hkept.tags htag)

theorem id_eq (h : Numbered s) {c : Client} (hc : c ∈ s.endpoint.table.clients) :
    c.seq < s.admitted.length ∧ c.id = nth c.seq := by
  have hget := h.tagged _ (List.mem_map_of_mem hc)
  obtain ⟨hlt, -⟩ := List.getElem?_eq_some_iff.mp hget
  refine ⟨hlt, ?_⟩
  rw [h.admitted, List.getElem?_map, List.getElem?_range hlt] at hget
  exact (Option.some.inj hget).symm

end Numbered

theorem numbered_course (path : String) (limits : EndpointLimits) (token : Option String)
    (calls : List Call) : Numbered (course (new path limits token) calls) := by
  induction calls using List.reverseRecOn with
  | nil =>
    refine ⟨rfl, rfl, rfl, ?_⟩
    simp [course, new, ClientTable.tags, ClientTable.clients_withCapacity]
  | append_singleton calls c ih =>
    rw [course_append_singleton]
    exact ih.next_call c

/-! ## Fresh ids -/

/-- **When the id of a new client is in use.** It is never zero or that of the tunnel. A tracked
client holds it exactly where that client came after so many clients less that all ids were given
meanwhile, once or several times over; so it is fresh unless somebody stays for that long. -/
theorem accept_fresh_iff (path : String) (limits : EndpointLimits) (token : Option String)
    (calls : List Call) (outbox : BoundedQueue Message) :
    let s := course (new path limits token) calls
    let id := (s.endpoint.accept outbox).1
    id.number ≠ 0 ∧ id.isTunnel = false ∧
    (∀ c ∈ s.endpoint.table.clients, s.admitted[c.seq]? = some c.id) ∧
    (id ∉ s.endpoint.clientIds ↔
      ∀ c ∈ s.endpoint.table.clients, ¬ localCount ∣ s.admitted.length - c.seq) := by
  intro s id
  have hs : Numbered s := numbered_course path limits token calls
  have hid : id = nth s.admitted.length := hs.next
  have hheld : ∀ c ∈ s.endpoint.table.clients,
      c.id = id ↔ localCount ∣ s.admitted.length - c.seq := by
    intro c hc
    obtain ⟨hlt, hnth⟩ := hs.id_eq hc
    rw [hnth, hid]
    exact ClientId.nth_eq_nth_iff (Nat.le_of_lt hlt)
  refine ⟨hid ▸ ClientId.nth_ne_zero _, hid ▸ ClientId.isTunnel_nth _,
    fun c hc => hs.tagged _ (List.mem_map_of_mem hc), ?_⟩
  constructor
  · intro hfresh c hc hdvd
    exact hfresh (List.mem_map.mpr ⟨c, hc, (hheld c hc).mpr hdvd⟩)
  · intro hnone hmem
    obtain ⟨c, hc, heq⟩ := List.mem_map.mp hmem
    exact hnone c hc ((hheld c hc).mp heq)

/-- A client comes to stay, and after it others, each of which leaves before the next one comes. -/
def visits (n : Nat) : List Call :=
  .accept (.new 1) :: (List.range n).flatMap fun k => [.accept (.new 1), .release (nth (k + 1))]

theorem visits_succ (n : Nat) :
    visits (n + 1) = visits n ++ [.accept (.new 1)] ++ [.release (nth (n + 1))] := by
  simp [visits, List.range_succ]

section Visits

variable {e : Endpoint} {first : Client}

theorem slots_accept (h : e.table.slots = [some first, none]) (outbox : BoundedQueue Message) :
    (e.accept outbox).2.table.slots =
      [some first, some ⟨(e.accept outbox).1, e.table.nextSeq, .empty, outbox⟩] := by
  rw [accept_snd]
  simp [ClientTable.insert, ClientTable.fillFree, h]

theorem slots_visit {outbox : BoundedQueue Message} (h : e.table.slots = [some first, none])
    (hne : first.id ≠ (e.accept outbox).1) :
    ((e.accept outbox).2.release (e.accept outbox).1).2.table.slots = [some first, none] := by
  have hslots := slots_accept h outbox
  have hfind : (e.accept outbox).2.table.find? (e.accept outbox).1 =
      some ⟨(e.accept outbox).1, e.table.nextSeq, .empty, outbox⟩ := by
    simp [ClientTable.find?, ClientTable.clients, hslots, hne]
  rw [release_of_find? hfind]
  simp [ClientTable.remove, hfind, hslots, ClientTable.freeFirst, hne]

end Visits

/-- As long as no id is given again, the first client alone is tracked after each visit. -/
theorem course_visits {n : Nat} (h : n < localCount) :
    let s := course (new "/pier" pairLimits none) (visits n)
    s.endpoint.table.slots = [some ⟨nth 0, 0, .empty, .new 1⟩, none] ∧
      s.admitted.length = n + 1 := by
  induction n with
  | zero => exact ⟨rfl, rfl⟩
  | succ n ih =>
    obtain ⟨hslots, hlength⟩ := ih (Nat.lt_of_succ_lt h)
    have hs := numbered_course "/pier" pairLimits none (visits n)
    have hne : nth 0 ≠ nth (n + 1) := by
      rw [ne_eq, ClientId.nth_eq_nth_iff (Nat.zero_le _)]
      exact Nat.not_dvd_of_pos_of_lt (Nat.succ_pos n) h
    rw [visits_succ, course_append_singleton, course_append_singleton]
    generalize course (new "/pier" pairLimits none) (visits n) = s at hslots hlength hs
    have hid : (s.endpoint.accept (.new 1)).1 = nth (n + 1) := hlength ▸ hs.next
    refine ⟨?_, ?_⟩
    · rw [← hid] at hne ⊢
      exact slots_visit hslots hne
    · simp [Course.next, arrivals, hlength]

/-- Once all ids were given, the first client is still tracked as its id is given to another. -/
theorem first_id_again {n : Nat} (h : n + 1 = localCount) (outbox : BoundedQueue Message) :
    let s := course (new "/pier" pairLimits none) (visits n)
    (s.endpoint.accept outbox).1 ∈ s.endpoint.clientIds ∧
      (s.endpoint.accept outbox).2.clientIds = [nth 0, nth 0] := by
  intro s
  have hs : Numbered s := numbered_course "/pier" pairLimits none (visits n)
  obtain ⟨hslots, hlength⟩ : s.endpoint.table.slots = _ ∧ s.admitted.length = n + 1 :=
    course_visits (Nat.lt_of_succ_le (Nat.le_of_eq h))
  have hagain : nth 0 = nth (n + 1) := by
    rw [h, ClientId.nth_eq_nth_iff (Nat.zero_le _)]
    exact Nat.dvd_refl _
  have hid : (s.endpoint.accept outbox).1 = nth 0 := by
    rw [hagain, ← hlength]
    exact hs.next
  have hids : s.endpoint.clientIds = [nth 0] := by
    simp [clientIds, ClientTable.ids, ClientTable.clients, hslots]
  refine ⟨?_, ?_⟩
  · rw [hid, hids]
    exact List.mem_cons_self
  · simp [clientIds, ClientTable.ids, ClientTable.clients, slots_accept hslots outbox, hid]

/-- So a new client may be given an id that is in use. -/
theorem fresh_id_in_use :
    let s := course (new "/pier" pairLimits none) (visits (localCount - 1))
    (s.endpoint.accept (.new 1)).1 ∈ s.endpoint.clientIds ∧
      (s.endpoint.accept (.new 1)).2.clientIds = [nth 0, nth 0] :=
  first_id_again (Nat.sub_add_cancel (by decide)) (.new 1)

end Endpoint

end DeviceRelay
