import DeviceRelay.Proofs.Endpoint.Course

/-!
# The clients of an endpoint over time

Clients are numbered as they come. Each of them is tracked or has left, and never both; of those who
have left, exactly the ones who had to go are told to end their connections. All of that holds for
as long as no id is given a second time.

* `Endpoint.Roster`: how an endpoint accounts for the clients that came.
* `Endpoint.Roster.next`, `Endpoint.roster_course`: it does so after any calls.
* `Endpoint.Admission`: what an admission means for the new client and for the others.
* `Endpoint.clients_course`: the laws of the clients of an endpoint.
-/

namespace DeviceRelay

open scoped List

namespace Endpoint

/-! ## Numbers of clients -/

theorem allocateId_of_lt {next : UInt32} (hpos : 0 < next.toNat)
    (hlt : next.toNat < UInt32.size - 1) : allocateId next = (⟨next⟩, next + 1) := by
  have hzero : next ≠ 0 := by
    rintro rfl
    exact absurd hpos (by decide)
  have htunnel : next ≠ ClientId.tunnel.number := by
    rintro rfl
    exact absurd hlt (by decide)
  rw [allocateId, if_neg (not_or.mpr ⟨htunnel, hzero⟩)]

/-! ## The roster -/

/-- How an endpoint accounts for the clients that came. -/
structure Roster (limits : EndpointLimits) (s : Course) : Prop where
  slots : s.endpoint.table.slots.length = max limits.maxClients 1
  nextId : s.endpoint.nextId.toNat = s.admitted.length + 1
  nextSeq : s.endpoint.table.nextSeq = s.admitted.length
  /-- Clients are numbered from one. -/
  numbers : s.admitted.map (fun id => id.number.toNat) = List.range' 1 s.admitted.length
  /-- A tracked client knows how many came before it. -/
  tagged : ∀ tag ∈ s.endpoint.table.tags, s.admitted[tag.2]? = some tag.1
  /-- Each client is tracked or has left, once. -/
  everybody : (s.endpoint.clientIds ++ s.endpoint.departed.map Departed.id).Perm s.admitted
  expelled : ((s.endpoint.departed.map mark).filter Prod.snd).map Prod.fst = s.expelled.reverse

namespace Roster

variable {limits : EndpointLimits} {s : Course}

theorem number_of_mem (h : Roster limits s) {id : ClientId} (hid : id ∈ s.admitted) :
    1 ≤ id.number.toNat ∧ id.number.toNat ≤ s.admitted.length := by
  have hmem : id.number.toNat ∈ s.admitted.map fun id => id.number.toNat :=
    List.mem_map_of_mem hid
  rw [h.numbers, List.mem_range'_1] at hmem
  omega

theorem admitted_nodup (h : Roster limits s) : s.admitted.Nodup := by
  refine List.Nodup.of_map (fun id => id.number.toNat) ?_
  rw [h.numbers]
  exact List.nodup_range'

theorem nodup (h : Roster limits s) : s.endpoint.clientIds.Nodup ∧
    (s.endpoint.departed.map Departed.id).Nodup ∧
    ∀ id ∈ s.endpoint.clientIds, id ∉ s.endpoint.departed.map Departed.id := by
  have hall := h.everybody.nodup_iff.mpr h.admitted_nodup
  obtain ⟨hids, hdeparted, hapart⟩ := List.nodup_append.mp hall
  exact ⟨hids, hdeparted, fun id hid hd => hapart id hid id hd rfl⟩

theorem mem_admitted_iff (h : Roster limits s) {id : ClientId} : id ∈ s.admitted ↔
    id ∈ s.endpoint.clientIds ∨ id ∈ s.endpoint.departed.map Departed.id := by
  rw [← h.everybody.mem_iff, List.mem_append]

theorem mem_admitted (h : Roster limits s) {id : ClientId} (hid : id ∈ s.endpoint.clientIds) :
    id ∈ s.admitted := h.mem_admitted_iff.mpr (.inl hid)

theorem slots_pos (h : Roster limits s) : 0 < s.endpoint.table.slots.length := by
  rw [h.slots]
  omega

/-- Among tracked clients the number of arrival tells them apart. -/
theorem seq_inj (h : Roster limits s) {c d : Client} (hc : c ∈ s.endpoint.table.clients)
    (hd : d ∈ s.endpoint.table.clients) (hseq : c.seq = d.seq) : c = d := by
  have hctag := h.tagged _ (List.mem_map_of_mem hc)
  have hdtag := h.tagged _ (List.mem_map_of_mem hd)
  have hid : some c.id = some d.id :=
    hctag.symm.trans ((congrArg (s.admitted[·]?) hseq).trans hdtag)
  exact List.inj_on_of_nodup_map h.nodup.1 hc hd (Option.some.inj hid)

theorem seq_nodup (h : Roster limits s) :
    (s.endpoint.table.clients.map Client.seq).Nodup :=
  (List.Nodup.of_map _ h.nodup.1).map_on fun _ hc _ hd => h.seq_inj hc hd

/-! ## One call -/

/-- As long as ids last, a new client has the next number. -/
theorem allocateId_eq (h : Roster limits s) (hlt : s.admitted.length < UInt32.size - 2) :
    allocateId s.endpoint.nextId = (⟨s.endpoint.nextId⟩, s.endpoint.nextId + 1) := by
  refine allocateId_of_lt ?_ ?_ <;> rw [h.nextId] <;> omega

theorem arrivals_cases (h : Roster limits s) (hlt : s.admitted.length < UInt32.size - 2)
    (c : Call) :
    s.endpoint.arrivals c = [] ∨ s.endpoint.arrivals c = [⟨s.endpoint.nextId⟩] := by
  cases c with
  | accept outbox =>
    have hid : s.endpoint.arrivals (.accept outbox) = [(allocateId s.endpoint.nextId).1] := rfl
    rw [hid, h.allocateId_eq hlt]
    exact .inr rfl
  | _ => exact .inl rfl

theorem fresh (h : Roster limits s) (hlt : s.admitted.length < UInt32.size - 2) {c : Call}
    {id : ClientId} (hid : id ∈ s.endpoint.arrivals c) : id ∉ s.admitted := by
  intro hmem
  have hle := (h.number_of_mem hmem).2
  rcases h.arrivals_cases hlt c with hnone | hone
  · rw [hnone] at hid
    cases hid
  · rw [hone, List.mem_singleton] at hid
    rw [hid, h.nextId] at hle
    omega

theorem effect (h : Roster limits s) (hlt : s.admitted.length < UInt32.size - 2) (c : Call) :
    Effect s.endpoint c :=
  effect_apply h.slots_pos h.nodup.1 h.seq_nodup fun _ hid hmem =>
    h.fresh hlt hid (h.mem_admitted hmem)

/-- Whoever leaves is remembered, and whoever comes is tracked. -/
theorem everybody_next (h : Roster limits s) {c : Call} (heff : Effect s.endpoint c) :
    ((s.next c).endpoint.clientIds ++ (s.next c).endpoint.departed.map Departed.id).Perm
      (s.next c).admitted := by
  let came := s.endpoint.arrivals c
  let left := s.endpoint.leavers c
  let stay := s.endpoint.clientIds.filter fun id => id ∉ left
  let before := s.endpoint.departed.map Departed.id
  have hdeparted : (s.next c).endpoint.departed.map Departed.id = left.reverse ++ before :=
    heff.departed_ids
  rw [hdeparted]
  calc (s.next c).endpoint.clientIds ++ (left.reverse ++ before)
      ~ (came ++ stay) ++ (left ++ before) :=
        heff.ids.append ((List.reverse_perm left).append_right before)
    _ = came ++ ((stay ++ left) ++ before) := by simp
    _ ~ came ++ (s.endpoint.clientIds ++ before) :=
        ((stay_append_leavers_perm s.endpoint c).append_right before).append_left came
    _ ~ came ++ s.admitted := h.everybody.append_left came
    _ ~ s.admitted ++ came := List.perm_append_comm

/-- **An endpoint that accounts for its clients does so after one more call.** -/
theorem next (h : Roster limits s) (hlt : s.admitted.length < UInt32.size - 2) (c : Call) :
    Roster limits (s.next c) := by
  have heff := h.effect hlt c
  have hcame := h.arrivals_cases hlt c
  refine ⟨heff.slots.trans h.slots, ?nextId, ?nextSeq, ?numbers, ?tagged, h.everybody_next heff,
    ?expelled⟩
  case nextId =>
    refine (congrArg UInt32.toNat heff.nextId).trans ?_
    rcases hcame with hnone | hone
    · simp [Course.next, hnone, h.nextId]
    · have hsize : UInt32.size = 4294967296 := rfl
      have hnumber : (s.endpoint.nextId + 1).toNat = s.endpoint.nextId.toNat + 1 := by
        rw [UInt32.toNat_add, h.nextId, show (1 : UInt32).toNat = 1 from rfl]
        omega
      simp [Course.next, hone, h.allocateId_eq hlt, hnumber, h.nextId]
  case nextSeq => rw [Course.next, heff.nextSeq, h.nextSeq, List.length_append]
  case numbers =>
    rw [Course.next, List.map_append, h.numbers]
    rcases hcame with hnone | hone
    · simp [hnone]
    · rw [hone, List.map_singleton, List.length_append, List.length_singleton,
        List.range'_concat, h.nextId]
      simp [Nat.add_comm]
  case tagged =>
    intro tag htag
    rcases List.mem_append.mp (heff.tags.mem_iff.mp htag) with hnew | hold
    · obtain ⟨id, hid, rfl⟩ := List.mem_map.mp hnew
      rcases hcame with hnone | hone
      · rw [hnone] at hid
        cases hid
      · rw [hone, List.mem_singleton] at hid
        simp [Course.next, hone, hid, h.nextSeq]
    · have hget := h.tagged tag (List.mem_filter.mp hold).1
      have hlt := (List.getElem?_eq_some_iff.mp hget).1
      exact (List.getElem?_append_left hlt).trans hget
  case expelled =>
    rw [Course.next, heff.departed, List.filter_append, List.map_append, h.expelled,
      List.reverse_append, List.filter_reverse, List.map_reverse]
    cases c.expels <;> simp [List.filter_map, Function.comp_def]

end Roster

/-! ## All calls -/

variable {limits : EndpointLimits}

theorem roster_new (path : String) (limits : EndpointLimits) (token : Option String) :
    Roster limits (course (new path limits token) []) where
  slots := by simp [course, new, ClientTable.withCapacity]
  nextId := rfl
  nextSeq := rfl
  numbers := rfl
  tagged := by simp [course, new, ClientTable.tags, ClientTable.clients_withCapacity]
  everybody := by
    simp [course, new, clientIds, ClientTable.ids, ClientTable.clients_withCapacity]
  expelled := rfl

theorem roster_course {path : String} {token : Option String} {calls : List Call}
    (h : (course (new path limits token) calls).admitted.length < UInt32.size - 2) :
    Roster limits (course (new path limits token) calls) := by
  induction calls using List.reverseRecOn with
  | nil => exact roster_new path limits token
  | append_singleton calls c ih =>
    have hle := length_admitted_le (new path limits token) calls [c]
    rw [course_append_singleton]
    exact (ih (Nat.lt_of_le_of_lt hle h)).next (Nat.lt_of_le_of_lt hle h) c

/-! ## Who had to go -/

namespace Roster

variable {s : Course}

theorem mem_expelled_iff (h : Roster limits s) {id : ClientId} :
    id ∈ s.expelled ↔ ∃ d ∈ s.endpoint.departed, d.id = id ∧ d.shutOut = true := by
  rw [← List.mem_reverse, ← h.expelled]
  simp [mark, and_comm]

/-- The connection of a client sees whether it is tracked, and is told to end exactly where the
client had to go. -/
theorem connection?_eq (h : Roster limits s) {id : ClientId} (hid : id ∈ s.admitted) :
    ∃ outbox, s.endpoint.connection? id =
      some ⟨outbox, decide (id ∈ s.endpoint.clientIds), decide (id ∈ s.expelled)⟩ := by
  obtain ⟨-, hdeparted, hapart⟩ := h.nodup
  by_cases htracked : id ∈ s.endpoint.clientIds
  · obtain ⟨c, hc⟩ := Option.isSome_iff_exists.mp (ClientTable.find?_isSome_iff.mpr htracked)
    have hnot : id ∉ s.expelled := by
      rw [h.mem_expelled_iff]
      rintro ⟨d, hd, rfl, -⟩
      exact hapart d.id htracked (List.mem_map_of_mem hd)
    exact ⟨c.outbox, by simp [Endpoint.connection?, hc, htracked, hnot]⟩
  · obtain ⟨d, hd, rfl⟩ := List.mem_map.mp ((h.mem_admitted_iff.mp hid).resolve_left htracked)
    have hfind := ClientTable.find?_key hdeparted hd
    have hshut : d.shutOut = decide (d.id ∈ s.expelled) := by
      rw [Bool.eq_iff_iff, decide_eq_true_iff, h.mem_expelled_iff]
      refine ⟨fun hs => ⟨d, hd, rfl, hs⟩, ?_⟩
      rintro ⟨d', hd', hid', hs⟩
      rwa [← List.inj_on_of_nodup_map hdeparted hd' hd hid']
    have hnone := ClientTable.find?_eq_none_iff.mpr htracked
    exact ⟨d.outbox, by simp [Endpoint.connection?, hnone, hfind, htracked, hshut]⟩

end Roster

/-! ## Admissions -/

/-- What an admission means for the new client and for the others. -/
structure Admission (limits : EndpointLimits) (s : Course) (outbox : BoundedQueue Message) :
    Prop where
  fresh : (s.endpoint.accept outbox).1 ∉ s.admitted
  tracked : (s.endpoint.accept outbox).1 ∈ (s.endpoint.accept outbox).2.clientIds
  /-- Whatever slot it has, it is subscribed to nothing. -/
  silent : ∀ topic,
    (s.endpoint.accept outbox).2.hasTopic (s.endpoint.accept outbox).1 topic = false
  /-- While there is room nobody has to go. -/
  room : s.endpoint.clientCount < max limits.maxClients 1 →
    s.endpoint.leavers (.accept outbox) = []
  /-- Otherwise one client has to, the first to come of those who are tracked. -/
  full : max limits.maxClients 1 ≤ s.endpoint.clientCount →
    ∃ old, s.admitted.find? (fun id => id ∈ s.endpoint.clientIds) = some old ∧
      s.endpoint.leavers (.accept outbox) = [old]

namespace Roster

variable {s : Course}

theorem isTunnel_of_mem (h : Roster limits s) (hlt : s.admitted.length < UInt32.size - 1)
    {id : ClientId} (hid : id ∈ s.admitted) : id.isTunnel = false := by
  have hle := (h.number_of_mem hid).2
  rw [ClientId.isTunnel, decide_eq_false_iff_not]
  rintro rfl
  rw [show ClientId.tunnel.number.toNat = UInt32.size - 1 from rfl] at hle
  omega

/-- The tracked client with the least number of arrival is the first to come of those who are
tracked. -/
theorem find?_admitted (h : Roster limits s) {old : Client}
    (hold : old ∈ s.endpoint.table.clients)
    (hle : ∀ c ∈ s.endpoint.table.clients, old.seq ≤ c.seq) :
    s.admitted.find? (fun id => id ∈ s.endpoint.clientIds) = some old.id := by
  have htag := h.tagged _ (List.mem_map_of_mem hold)
  obtain ⟨hlt, hget⟩ := List.getElem?_eq_some_iff.mp htag
  have hmem : old.id ∈ s.endpoint.clientIds := List.mem_map_of_mem hold
  refine List.find?_eq_some_iff_getElem.mpr ⟨by simpa using hmem, old.seq, hlt, hget, ?_⟩
  intro j hj
  rw [Bool.not_eq_true', decide_eq_false_iff_not]
  intro htracked
  obtain ⟨c, hc, hid⟩ := List.mem_map.mp htracked
  obtain ⟨hclt, hcget⟩ := List.getElem?_eq_some_iff.mp (h.tagged _ (List.mem_map_of_mem hc))
  have hseq : c.seq = j := (h.admitted_nodup.getElem_inj_iff).mp (hcget.trans hid)
  have := hle c hc
  omega

/-- **What an admission means.** -/
theorem admission (h : Roster limits s) (hlt : s.admitted.length < UInt32.size - 2)
    (outbox : BoundedQueue Message) : Admission limits s outbox := by
  let new := (s.endpoint.accept outbox).1
  have harrives : new ∈ s.endpoint.arrivals (.accept outbox) := List.mem_singleton_self _
  have hfresh := h.fresh hlt harrives
  obtain ⟨-, hleavers⟩ := effect_accept h.slots_pos h.nodup.1 h.seq_nodup outbox fun hid =>
    hfresh (h.mem_admitted hid)
  have hcases := accept_cases h.slots_pos h.nodup.1 h.seq_nodup outbox
  have hmem : ⟨new, s.endpoint.table.nextSeq, .empty, outbox⟩ ∈
      (s.endpoint.accept outbox).2.table.clients := by
    rcases hcases with ⟨-, -, hperm⟩ | ⟨-, old, -, -, -, hperm⟩ <;>
      exact hperm.mem_iff.mpr List.mem_cons_self
  have hnext := h.next hlt (.accept outbox)
  have htracked : new ∈ (s.endpoint.accept outbox).2.clientIds := List.mem_map_of_mem hmem
  refine ⟨hfresh, htracked, ?_, ?_, ?_⟩
  · intro topic
    have hlocal : new.isTunnel = false := by
      refine hnext.isTunnel_of_mem ?_ (hnext.mem_admitted htracked)
      rw [Course.next, List.length_append, arrivals, List.length_singleton]
      omega
    have hfind : (s.endpoint.accept outbox).2.table.find? new = some _ :=
      ClientTable.find?_key hnext.nodup.1 hmem
    rw [hasTopic, if_neg (Bool.eq_false_iff.mp hlocal), hfind]
    cases topic <;> rfl
  · intro hroom
    rcases hcases with ⟨-, hnone, -⟩ | ⟨hcount, -⟩
    · rw [hleavers, hnone]
      rfl
    · rw [hcount, h.slots] at hroom
      omega
  · intro hfull
    rcases hcases with ⟨hcount, -⟩ | ⟨-, old, hold, hin, hle, -⟩
    · rw [h.slots] at hcount
      omega
    · exact ⟨old.id, h.find?_admitted hin hle, by rw [hleavers, hold]; rfl⟩

theorem clientCount_le (h : Roster limits s) :
    s.endpoint.clientCount ≤ max limits.maxClients 1 :=
  h.slots ▸ List.length_filterMap_le _ _

theorem number_ne_zero (h : Roster limits s) {id : ClientId} (hid : id ∈ s.admitted) :
    id.number ≠ 0 := by
  intro hzero
  have hpos := (h.number_of_mem hid).1
  rw [hzero] at hpos
  exact absurd hpos (by decide)

end Roster

/-- **The clients of an endpoint.** There are never more than it may have, each with an id of its
own, neither zero nor that of the tunnel. Every client that was admitted is tracked or has left,
once. A client has to go for a new one only where there is no room, and then it is the one that came
first; the new one is subscribed to nothing. The connection of a client is told to end exactly
where the client had to go, and of those none is tracked. -/
theorem clients_course (path : String) (limits : EndpointLimits) (token : Option String)
    (calls : List Call)
    (h : (course (new path limits token) calls).admitted.length < UInt32.size - 2) :
    let s := course (new path limits token) calls
    s.endpoint.clientCount ≤ max limits.maxClients 1 ∧
    s.endpoint.clientIds.Nodup ∧
    (∀ id ∈ s.endpoint.clientIds, id.number ≠ 0 ∧ id.isTunnel = false) ∧
    (s.endpoint.clientIds ++ s.endpoint.departed.map Departed.id).Perm s.admitted ∧
    (∀ before outbox after, calls = before ++ .accept outbox :: after →
      Admission limits (course (new path limits token) before) outbox) ∧
    (∀ id ∈ s.admitted, ∃ outbox, s.endpoint.connection? id =
      some ⟨outbox, decide (id ∈ s.endpoint.clientIds), decide (id ∈ s.expelled)⟩) ∧
    ∀ id ∈ s.expelled, id ∉ s.endpoint.clientIds := by
  intro s
  have hs : Roster limits s := roster_course h
  refine ⟨hs.clientCount_le, hs.nodup.1, fun id hid => ?_, hs.everybody, ?_,
    fun id hid => hs.connection?_eq hid, fun id hid => ?_⟩
  · have hmem := hs.mem_admitted hid
    exact ⟨hs.number_ne_zero hmem, hs.isTunnel_of_mem (Nat.lt_trans h (by decide)) hmem⟩
  · rintro before outbox after rfl
    have hlt := Nat.lt_of_le_of_lt (length_admitted_le _ before (.accept outbox :: after)) h
    exact (roster_course hlt).admission hlt outbox
  · obtain ⟨d, hd, rfl, -⟩ := hs.mem_expelled_iff.mp hid
    exact fun hids => hs.nodup.2.2 d.id hids (List.mem_map_of_mem hd)

/-- Room for two clients. -/
def pairLimits : EndpointLimits := ⟨2, 8, 8⟩

/-- The first of two clients leaves, and a third takes its slot. -/
def reseated : List Call :=
  [.accept (.new 1), .accept (.new 1), .release ⟨1⟩, .accept (.new 1)]

/-- The second client then has to go for a fourth: the third came later, if to the first slot. -/
theorem clients_course_reseated :
    (course (new "/pier" pairLimits none) (reseated ++ [.accept (.new 1)])).admitted.length <
        UInt32.size - 2 ∧
      Admission pairLimits (course (new "/pier" pairLimits none) reseated) (.new 1) ∧
      (course (new "/pier" pairLimits none) reseated).endpoint.clientIds = [⟨3⟩, ⟨2⟩] ∧
      (course (new "/pier" pairLimits none) reseated).endpoint.leavers (.accept (.new 1)) =
        [⟨2⟩] := by
  have hlt : (course (new "/pier" pairLimits none)
      (reseated ++ [.accept (.new 1)])).admitted.length < UInt32.size - 2 := by decide +kernel
  have hlaws := clients_course "/pier" pairLimits none (reseated ++ [.accept (.new 1)])
  exact ⟨hlt, (hlaws hlt).2.2.2.2.1 reseated (.new 1) [] rfl, by decide +kernel, by decide +kernel⟩

end Endpoint

end DeviceRelay
