import EasyConnection.Udpgw.Link

/-! # What the gateway's replies reach

A gateway that answers only under the ids of packets that it has decoded is heard by those who
have sent these packets: a datagram goes back to the local address whose datagram the gateway has
decoded, and a query gets what came under the id of its own packet.
-/
namespace EasyConnection.Udpgw
open Async Net

variable {payload : List UInt8} {q : ℕ}

section Client
variable {st st' : State} {e : Event}

/-- A flow that a step inserts is that of the requester who holds the id. -/
theorem step_flows (h : Inv st) (hs : step st e = some st') {c : UInt16} {f : Flow}
    (hf : st'.flows c = some f) : st.flows c = some f ∨ ∃ r, Holds st r c ∧ r.flow = f := by
  have hput {c' : UInt16} {g : Option Flow} (hg : ∀ f, g = some f → ∃ r, Holds st r c' ∧ r.flow = f)
      (hf : Function.update st.flows c' g c = some f) :
      st.flows c = some f ∨ ∃ r, Holds st r c ∧ r.flow = f := by
    by_cases hc : c = c'
    · subst hc
      rw [Function.update_self] at hf
      exact .inr (hg f hf)
    · rw [Function.update_of_ne hc] at hf
      exact .inl hf
  cases step_moves hs with
  | known hkey => exact .inl hf
  | record hlock hkey => exact .inl hf
  | @recordFlow k c' hreg =>
    refine hput (fun f' hf' => ⟨.pair k, h.lock k c' hreg, ?_⟩) hf
    exact Option.some.inj hf'
  | allocate hcall => exact .inl hf
  | @insertFlow q c' hcall =>
    refine hput (fun f' hf' => ⟨.query q, ?_, Option.some.inj hf'⟩) hf
    rw [Holds, hcall]
    rfl
  | written hcall => exact .inl hf
  | answer hflow => exact hput (fun f' hf' => by cases hf') hf
  | @deliver c' source payload hflow =>
    rw [deliver_eq hflow] at hf
    exact .inl hf
  | unknown hflow => exact .inl hf
  | timeout hcall => exact .inl hf
  | removeFlow hcall => exact hput (fun f' hf' => by cases hf') hf
  | finish hcall hrx => exact .inl hf

theorem putFlow_replies {c : UInt16} {f : Option Flow} : (st.putFlow c f).replies = st.replies := by
  unfold State.putFlow State.dropFlow
  dsimp only
  split <;> rfl

theorem step_replies (hs : step st e = some st') {source : SocketAddr}
    (hr : (source, payload) ∈ st'.replies) : (source, payload) ∈ st.replies ∨
      ∃ c, e = .packet c payload ∧ st.flows c = some (.udp source) := by
  cases step_moves hs with
  | known hkey => exact .inl hr
  | record hlock hkey => exact .inl hr
  | recordFlow hreg =>
    rw [State.release, putFlow_replies] at hr
    exact .inl hr
  | allocate hcall => exact .inl hr
  | insertFlow hcall =>
    rw [State.setCall, putFlow_replies] at hr
    exact .inl hr
  | written hcall => exact .inl hr
  | answer hflow => exact .inl hr
  | @deliver c source' payload' hflow =>
    rcases List.mem_cons.1 hr with heq | hr
    · cases heq
      exact .inr ⟨c, rfl, hflow⟩
    · exact .inl hr
  | unknown hflow => exact .inl hr
  | timeout hcall => exact .inl hr
  | removeFlow hcall =>
    rw [State.setCall, putFlow_replies] at hr
    exact .inl hr
  | finish hcall hrx => exact .inl hr

theorem Call.rx_setRx {call : Call} {rx : Rx} (h : (call.setRx rx).rx = some (.got payload)) :
    call.rx = some (.got payload) ∨ rx = .got payload := by
  unfold Call.setRx at h
  split at h
  · exact .inr (Option.some.inj h)
  · exact .inr (Option.some.inj h)
  · exact .inl h

/-- A call of a query has an answer only by a packet under the id of its flow. -/
theorem step_answers (hs : step st e = some st') (hr : (st'.calls q).rx = some (.got payload)) :
    (st.calls q).rx = some (.got payload) ∨
      ∃ c, e = .packet c payload ∧ st.flows c = some (.dns q) := by
  have hset {st₁ : State} {q' : ℕ} {call : Call}
      (hold : ∀ q, (st₁.calls q).rx = some (.got payload) → (st.calls q).rx = some (.got payload))
      (hcall : call.rx = some (.got payload) → (st.calls q').rx = some (.got payload))
      (hr : ((st₁.setCall q' call).calls q).rx = some (.got payload)) :
      (st.calls q).rx = some (.got payload) := by
    by_cases hq : q = q'
    · subst hq
      simp only [State.setCall, Function.update_self] at hr
      exact hcall hr
    · simp only [State.setCall, Function.update_of_ne hq] at hr
      exact hold q hr
  have hput {c : UInt16} {f : Option Flow} (q : ℕ)
      (hr : ((st.putFlow c f).calls q).rx = some (.got payload)) :
      (st.calls q).rx = some (.got payload) := by
    rw [putFlow_calls] at hr
    split_ifs at hr
    · rcases Call.rx_setRx hr with h | h
      · exact h
      · cases h
    · exact hr
  cases step_moves hs with
  | known hkey => exact .inl hr
  | record hlock hkey => exact .inl hr
  | @recordFlow k c hreg => exact .inl (hput (f := some (.udp k.1)) q hr)
  | allocate hcall => exact .inl (hset (fun _ h => h) (fun h => by cases h) hr)
  | insertFlow hcall => exact .inl (hset hput (fun h => by cases h) hr)
  | @written q' c rx ok hcall =>
    refine .inl (hset (fun _ h => h) (fun h => ?_) hr)
    cases ok with
    | true =>
      rw [hcall]
      exact h
    | false => cases h
  | @answer c q' payload' hflow =>
    by_cases hq : q = q'
    · subst hq
      simp only [State.answer, State.setCall, Function.update_self] at hr
      rcases Call.rx_setRx hr with h | h
      · exact .inl h
      · cases h
        exact .inr ⟨c, rfl, hflow⟩
    · simp only [State.answer, State.setCall, Function.update_of_ne hq] at hr
      exact .inl hr
  | deliver hflow => exact .inl hr
  | unknown hflow => exact .inl hr
  | timeout hcall => exact .inl (hset (fun _ h => h) (fun h => by cases h) hr)
  | removeFlow hcall => exact .inl (hset hput (fun h => by cases h) hr)
  | finish hcall hrx => exact .inl (hset (fun _ h => h) (fun h => by cases h) hr)

end Client

def LinkEvent.received : LinkEvent → Option UdpgwPacket
  | .receive pkt => some pkt
  | _ => none

namespace Link
variable (st : Link)

/-- What the id that a requester holds has been handed out for. -/
def request : Requester → Request
  | .pair k => .pair k
  | .query q => .query q (st.queries q).1 (st.queries q).2

/-- The `i`-th request has been given the `i`-th id. -/
def Issued (r : Request) (c : UInt16) : Prop :=
  ∃ i, st.issued[i]? = some r ∧ c = UInt16.ofNat (i + 1)

/-- The packet is what the calls of `es` have made for a request and its id. -/
def Made (es : List LinkEvent) (c : UInt16) (p : UdpgwPacket) : Request → Prop
  | .pair k => ∃ n payload dns, .sendUdp n k payload dns ∈ es ∧ p = .data c k.2 payload dns false
  | .query q dest query => .queryDns q dest query ∈ es ∧ p = .data c dest query true false

/-- A packet of a call, or a keepalive. -/
def Composed (es : List LinkEvent) (p : UdpgwPacket) : Prop :=
  p = .keepalive 0 ∨ ∃ r c, st.Issued r c ∧ Made es c p r

/-- The payload came under an id under which the gateway had decoded a packet of the request. -/
def Solicited (es : List LinkEvent) (payload : List UInt8) (r : Request) : Prop :=
  ∃ pkt p, .receive pkt ∈ es ∧ pkt.payload = payload ∧ p ∈ st.decoded ∧ Made es pkt.conid p r

/-- A gateway that answers under the id of a packet that it has decoded. -/
def Honest (e : LinkEvent) : Prop :=
  ∀ pkt ∈ e.received, pkt.flags &&& flagKeepalive = 0 →
    ∃ p ∈ st.decoded, p.flags &&& flagKeepalive = 0 ∧ p.conid = pkt.conid

instance (e : LinkEvent) : Decidable (st.Honest e) :=
  inferInstanceAs (Decidable (∀ pkt ∈ e.received, _))

end Link

/-- What holds between the ids, the packets and the replies. -/
structure Home (es : List LinkEvent) (st : Link) : Prop where
  inv : Inv st.client
  next : st.client.nextConid = UInt16.ofNat (st.issued.length + 1)
  held : ∀ r c, Holds st.client r c → st.Issued (st.request r) c
  flows : ∀ c f, st.client.flows c = some f → ∃ r, st.Issued r c ∧ r.flow = f
  asked : ∀ q dest query, .query q dest query ∈ st.issued → .queryDns q dest query ∈ es
  registrar : ∀ k c n payload dns, st.client.registering = some (k, c) →
    st.registrar = some (n, payload, dns) → .sendUdp n k payload dns ∈ es
  packets : st.wire.Every fun m => st.Composed es m.packet
  replies : ∀ source payload, (source, payload) ∈ st.client.replies →
    ∃ k : Key, k.1 = source ∧ st.Solicited es payload (.pair k)
  answers : ∀ q payload, (st.client.calls q).rx = some (.got payload) →
    st.Solicited es payload (st.request (.query q))

variable {p : UdpgwPacket}

section Ids
variable {st st' : Link} {es : List LinkEvent} {r r' : Request} {c : UInt16}

/-- No id is handed out twice as long as there are new ones. -/
theorem Link.Issued.unique (h : st.Issued r c) (h' : st.Issued r' c)
    (hcount : st.issued.length ≤ 65536) : r = r' := by
  obtain ⟨i, hi, rfl⟩ := h
  obtain ⟨j, hj, hc⟩ := h'
  have hilt := (List.getElem?_eq_some_iff.1 hi).1
  have hjlt := (List.getElem?_eq_some_iff.1 hj).1
  have hnat := congrArg UInt16.toNat hc
  simp only [UInt16.toNat_ofNat'] at hnat
  obtain rfl : i = j := by omega
  exact Option.some.inj (hi.symm.trans hj)

theorem Link.Issued.mono (h : st.Issued r c) (hissued : st.issued <+: st'.issued) :
    st'.Issued r c := by
  obtain ⟨i, hi, hc⟩ := h
  obtain ⟨later, hlater⟩ := hissued
  refine ⟨i, ?_, hc⟩
  rw [← hlater, List.getElem?_append_left (List.getElem?_eq_some_iff.1 hi).1]
  exact hi

theorem Link.Issued.mem (h : st.Issued r c) : r ∈ st.issued := by
  obtain ⟨i, hi, -⟩ := h
  exact List.mem_of_getElem? hi

theorem Link.Made.mono {es' : List LinkEvent} (h : Link.Made es c p r) (hes : es ⊆ es') :
    Link.Made es' c p r := by
  cases r with
  | pair k =>
    obtain ⟨n, payload, dns, hmem, hp⟩ := h
    exact ⟨n, payload, dns, hes hmem, hp⟩
  | query q dest query => exact ⟨hes h.1, h.2⟩

theorem Link.Made.conid (h : Link.Made es c p r) : p.conid = c := by
  cases r with
  | pair k =>
    obtain ⟨n, payload, dns, -, rfl⟩ := h
    rfl
  | query q dest query =>
    obtain ⟨-, rfl⟩ := h
    rfl

/-- The next id is one that nobody holds. -/
theorem Home.free (h : Home es st) (hcount : st.issued.length < 65536) :
    Free st.client st.client.nextConid := by
  intro r hr
  obtain ⟨i, hi, hc⟩ := h.held r _ hr
  have hlt := (List.getElem?_eq_some_iff.1 hi).1
  have hnat := congrArg UInt16.toNat (h.next.symm.trans hc)
  simp only [UInt16.toNat_ofNat'] at hnat
  omega

end Ids

variable {pkt : UdpgwPacket} {t : Task}

section Growth
variable {st st' : Link} {es es' : List LinkEvent}

theorem Link.Solicited.mono {r : Request} (h : st.Solicited es payload r) (hes : es ⊆ es')
    (hdecoded : st.decoded ⊆ st'.decoded) : st'.Solicited es' payload r := by
  obtain ⟨pkt, p, hreceive, hpayload, hp, hmade⟩ := h
  exact ⟨pkt, p, hes hreceive, hpayload, hdecoded hp, hmade.mono hes⟩

theorem Link.Composed.mono (h : st.Composed es p) (hes : es ⊆ es')
    (hissued : st.issued <+: st'.issued) : st'.Composed es' p := by
  rcases h with hkeep | ⟨r, c, hr, hmade⟩
  · exact .inl hkeep
  · exact .inr ⟨r, c, hr.mono hissued, hmade.mono hes⟩

theorem Home.mono (h : Home es st) (hes : es ⊆ es') : Home es' st where
  inv := h.inv
  next := h.next
  held := h.held
  flows := h.flows
  asked q dest query hr := hes (h.asked q dest query hr)
  registrar k c n payload dns hreg hdatagram := hes (h.registrar k c n payload dns hreg hdatagram)
  packets := h.packets.mono fun _ hm => hm.mono hes (List.prefix_refl _)
  replies source payload hr := by
    obtain ⟨k, hk, hsolicited⟩ := h.replies source payload hr
    exact ⟨k, hk, hsolicited.mono hes (List.Subset.refl _)⟩
  answers q payload hr := (h.answers q payload hr).mono hes (List.Subset.refl _)

theorem decoded_subset (h : st.wire.sent <+: st'.wire.sent) : st.decoded ⊆ st'.decoded := by
  obtain ⟨more, hmore⟩ := h
  refine List.IsPrefix.subset ?_
  rw [Link.decoded, Link.decoded, Link.decode, Link.decode, ← hmore]
  refine readLoop_append ?_ _ _
  rw [List.length_append]
  omega

/-- The stream goes on, with packets of the calls. -/
theorem Home.setWire (h : Home es st) {wire : SharedStream Task Framed UInt8}
    (hpackets : wire.Every fun m => st.Composed es m.packet) (hsent : st.wire.sent <+: wire.sent) :
    Home es { st with wire } where
  inv := h.inv
  next := h.next
  held := h.held
  flows := h.flows
  asked := h.asked
  registrar := h.registrar
  packets := hpackets
  replies source payload hr := by
    obtain ⟨k, hk, hsolicited⟩ := h.replies source payload hr
    exact ⟨k, hk, hsolicited.mono (List.Subset.refl _) (decoded_subset hsent)⟩
  answers q payload hr :=
    (h.answers q payload hr).mono (List.Subset.refl _) (decoded_subset hsent)

theorem Home.submit (h : Home es st) {refused : Link → Option Link} (hpkt : st.Composed es pkt)
    (hs : st.submit t pkt refused = some st') (hrefused : refused st = some st' → Home es st') :
    Home es st' := by
  unfold Link.submit at hs
  split at hs
  · obtain ⟨wire, hwire, rfl⟩ := Option.map_eq_some_iff.1 hs
    exact h.setWire (h.packets.submit hpkt hwire) (SharedStream.submit_sent hwire)
  · exact hrefused hs

end Growth

section Steps
variable {st st' : Link} {es : List LinkEvent} {e : Event}

theorem step_registering {st st' : State} (hs : step st e = some st')
    (halloc : e.allocates = false) : st'.registering = st.registering ∨ st'.registering = none := by
  cases step_moves hs with
  | known hkey => exact .inl rfl
  | record hlock hkey => cases halloc
  | recordFlow hreg => exact .inr rfl
  | allocate hcall => cases halloc
  | @insertFlow q c hcall => exact .inl (putFlow_registering (f := some (.dns q)))
  | written hcall => exact .inl rfl
  | answer hflow => exact .inl rfl
  | deliver hflow => exact .inl rfl
  | unknown hflow => exact .inl rfl
  | timeout hcall => exact .inl rfl
  | removeFlow hcall => exact .inl (putFlow_registering (f := none))
  | finish hcall hrx => exact .inl rfl

/-- A step of the client that hands out no id. A packet must be one that was asked for. -/
theorem Home.advance (h : Home es st) (halloc : e.allocates = false)
    (hpacket : ∀ c payload, e = .packet c payload → ∀ r, st.Issued r c → st.Solicited es payload r)
    (hs : st.advance e = some st') : Home es st' := by
  obtain ⟨client, hclient, rfl⟩ := Option.map_eq_some_iff.1 hs
  have hfresh : FreshConid st.client e := by
    cases e <;> trivial
  have hinv := inv_step h.inv hfresh hclient
  obtain ⟨hnext, hholds⟩ : client.nextConid = st.client.nextConid ∧
      ∀ r c, Holds client r c → Holds st.client r c := by
    rcases step_holds hclient with hkept | ⟨halloc', -⟩
    · exact hkept
    · exact absurd halloc' (by rw [halloc]; decide)
  refine ⟨hinv, hnext.trans h.next, fun r c hr => h.held r c (hholds r c hr), fun c f hf => ?_,
    h.asked, fun k c n payload dns hreg hdatagram => ?_, h.packets, fun source payload hr => ?_,
    fun q payload hr => ?_⟩
  · rcases step_flows h.inv hclient hf with hf | ⟨r, hr, rfl⟩
    · exact h.flows c f hf
    · refine ⟨st.request r, h.held r c hr, ?_⟩
      cases r <;> rfl
  · rcases step_registering hclient halloc with hsame | hnone
    · exact h.registrar k c n payload dns (hsame.symm.trans hreg) hdatagram
    · cases hnone.symm.trans hreg
  · rcases step_replies hclient hr with hr | ⟨c, he, hflow⟩
    · exact h.replies source payload hr
    · obtain ⟨r, hissued, hr⟩ := h.flows c _ hflow
      cases r with
      | pair k => exact ⟨k, Flow.udp.inj hr, hpacket c payload he _ hissued⟩
      | query q dest query => cases hr
  · rcases step_answers hclient hr with hr | ⟨c, he, hflow⟩
    · exact h.answers q payload hr
    · exact hpacket c payload he _ (h.held (.query q) c (h.inv.conid_of_flow hflow))

theorem Home.written (h : Home es st) {ok : Bool} (hs : st.written ok t = some st') :
    Home es st' := by
  cases t with
  | query q => exact h.advance rfl (fun c payload he => by cases he) hs
  | datagram n =>
    rw [← Option.some.inj hs]
    exact h
  | keepalive =>
    rw [← Option.some.inj hs]
    exact h

/-- The next id is that of the request that is added. -/
theorem Home.issued_next (h : Home es st) {r : Request} (hissued : st'.issued = st.issued ++ [r]) :
    st'.Issued r st.client.nextConid := by
  refine ⟨st.issued.length, ?_, h.next⟩
  rw [hissued, List.getElem?_concat_length]

variable {n : ℕ}

theorem next_succ {m : ℕ} {c : UInt16} (hc : c = UInt16.ofNat (n + 1)) (hm : m = n + 1) :
    c + 1 = UInt16.ofNat (m + 1) := by
  rw [hc, hm, UInt16.ofNat_add (n + 1) 1, UInt16.ofNat_one]

theorem Home.record (h : Home es st) (hcount : st.issued.length < 65536) {k : Key} {dns : Bool}
    (hlock : st.client.registering = none) (hes : .sendUdp n k payload dns ∈ es) :
    Home es ({ st with client := st.client.record k }.register n k payload dns) where
  inv := h.inv.record hlock (h.free hcount)
  next := next_succ h.next List.length_append
  held r c hr := by
    rcases holds_record hr with ⟨rfl, rfl⟩ | hr
    · exact h.issued_next rfl
    · have hrequest : ({ st with client := st.client.record k }.register n k payload dns).request r =
          st.request r := by
        cases r <;> rfl
      rw [hrequest]
      exact (h.held r c hr).mono (List.prefix_append _ _)
  flows c f hf := by
    obtain ⟨r, hr, hflow⟩ := h.flows c f hf
    exact ⟨r, hr.mono (List.prefix_append _ _), hflow⟩
  asked q dest query hr := by
    rcases List.mem_append.1 hr with hr | hr
    · exact h.asked q dest query hr
    · cases List.mem_singleton.1 hr
  registrar k' c n' payload' dns' hreg hdatagram := by
    cases hreg
    cases hdatagram
    exact hes
  packets := h.packets.mono fun _ hm => hm.mono (List.Subset.refl _) (List.prefix_append _ _)
  replies := h.replies
  answers := h.answers

theorem request_enlist {dest : SocketAddr} {query : List UInt8} {r : Requester}
    (hr : r ≠ .query q) : (st.enlist q dest query).request r = st.request r := by
  cases r with
  | pair k => rfl
  | query q' =>
    have hq : q' ≠ q := fun heq => hr (congrArg _ heq)
    simp only [Link.request, Link.enlist, Function.update_of_ne hq]

theorem Home.allocate (h : Home es st) (hcount : st.issued.length < 65536) {dest : SocketAddr}
    {query : List UInt8} (hidle : st.client.calls q = .idle) (hes : .queryDns q dest query ∈ es) :
    Home es ({ st with client := st.client.allocate q }.enlist q dest query) where
  inv := h.inv.allocate hidle (h.free hcount)
  next := next_succ h.next List.length_append
  held r c hr := by
    rcases holds_allocate hr with ⟨rfl, rfl⟩ | hr
    · have hrequest : ({ st with client := st.client.allocate q }.enlist q dest query).request
          (.query q) = .query q dest query := by
        simp only [Link.request, Link.enlist, Function.update_self]
      rw [hrequest]
      exact h.issued_next rfl
    · have hne : r ≠ .query q := by
        rintro rfl
        rw [Holds, hidle] at hr
        cases hr
      rw [request_enlist hne]
      exact (h.held r c hr).mono (List.prefix_append _ _)
  flows c f hf := by
    obtain ⟨r, hr, hflow⟩ := h.flows c f hf
    exact ⟨r, hr.mono (List.prefix_append _ _), hflow⟩
  asked q' dest' query' hr := by
    rcases List.mem_append.1 hr with hr | hr
    · exact h.asked q' dest' query' hr
    · cases List.mem_singleton.1 hr
      exact hes
  registrar := h.registrar
  packets := h.packets.mono fun _ hm => hm.mono (List.Subset.refl _) (List.prefix_append _ _)
  replies := h.replies
  answers q' payload hr := by
    by_cases hq : q' = q
    · subst hq
      simp only [Link.enlist, State.allocate, State.setCall, Function.update_self] at hr
      cases hr
    · rw [request_enlist (fun heq => hq (Requester.query.inj heq))]
      simp only [Link.enlist, State.allocate, State.setCall, Function.update_of_ne hq] at hr
      exact h.answers q' payload hr

theorem advance_eq (hs : st.advance e = some st') :
    ∃ client, step st.client e = some client ∧ st' = { st with client } := by
  obtain ⟨client, hclient, rfl⟩ := Option.map_eq_some_iff.1 hs
  exact ⟨client, hclient, rfl⟩

/-- A packet of a decoded stream is that of the one request that has its id. -/
theorem Home.made_of_decoded (h : Home es st) (hsound : WireSound st)
    (hcount : st.issued.length ≤ 65536) (hp : p ∈ st.decoded)
    (hdata : p.flags &&& flagKeepalive = 0) {r : Request} (hr : st.Issued r p.conid) :
    Link.Made es p.conid p r := by
  have hbegun : ∃ m ∈ st.wire.begun, m.packet = p := by
    rw [Link.decoded] at hp
    rcases hsound.decode_eq with hdecode | ⟨earlier, m, hbegun, -, hdecode⟩
    · rw [hdecode] at hp
      exact List.mem_map.1 hp
    · rw [hdecode] at hp
      obtain ⟨m', hm', hpacket⟩ := List.mem_map.1 hp
      exact ⟨m', by rw [hbegun]; exact List.mem_append_left _ hm', hpacket⟩
  obtain ⟨m, hm, rfl⟩ := hbegun
  rcases h.packets.begun m hm with hkeep | ⟨r', c, hr', hmade⟩
  · rw [hkeep] at hdata
    exact absurd hdata (by decide)
  · obtain rfl := hmade.conid
    rw [hr.unique hr' hcount]
    exact hmade

theorem Home.sendUdp (h : Home es st) {k : Key} {dns : Bool} (hes : .sendUdp n k payload dns ∈ es)
    (hs : st.sendUdp n k payload dns = some st') (hcount : st'.issued.length ≤ 65536) :
    Home es st' := by
  unfold Link.sendUdp at hs
  split at hs
  · next c _ hkey =>
    obtain ⟨st₁, hadvance, hs⟩ := Option.bind_eq_some_iff.1 hs
    obtain ⟨client, hclient, rfl⟩ := advance_eq hadvance
    obtain rfl : client = st.client := by
      cases step_moves hclient with
      | known _ => rfl
      | record _ hnone => cases hnone.symm.trans hkey
    refine h.submit (.inr ⟨.pair k, c, h.held (.pair k) c hkey, n, payload, dns, hes, rfl⟩) hs ?_
    intro hsome
    rw [← Option.some.inj hsome]
    exact h
  · next _ hkey =>
    obtain ⟨st₁, hadvance, rfl⟩ := Option.map_eq_some_iff.1 hs
    obtain ⟨client, hclient, rfl⟩ := advance_eq hadvance
    have hlt : st.issued.length < 65536 := by
      rw [Link.register, List.length_append] at hcount
      exact hcount
    cases step_moves hclient with
    | known hkey' => cases hkey.symm.trans hkey'
    | record hlock _ => exact h.record hlt hlock hes
  · cases hs

theorem Home.recordFlow (h : Home es st) (hs : st.recordFlow = some st') : Home es st' := by
  unfold Link.recordFlow at hs
  split at hs
  · next k c n payload dns hreg hdatagram =>
    obtain ⟨st₁, hadvance, hs⟩ := Option.bind_eq_some_iff.1 hs
    have hissued : st.Issued (.pair k) c := h.held (.pair k) c (h.inv.lock k c hreg)
    have hes := h.registrar k c n payload dns hreg hdatagram
    have h₁ : Home es { st₁ with registrar := none } := by
      have hhome := h.advance rfl (fun c payload he => by cases he) hadvance
      exact ⟨hhome.inv, hhome.next, hhome.held, hhome.flows, hhome.asked,
        fun _ _ _ _ _ _ hnone => (by cases hnone), hhome.packets, hhome.replies, hhome.answers⟩
    obtain ⟨client, -, rfl⟩ := advance_eq hadvance
    refine h₁.submit (.inr ⟨.pair k, c, hissued, n, payload, dns, hes, rfl⟩) hs fun hsome => ?_
    rw [← Option.some.inj hsome]
    exact h₁
  · cases hs

theorem Home.insertFlow (h : Home es st) (hs : st.insertFlow q = some st') : Home es st' := by
  unfold Link.insertFlow at hs
  split at hs
  · next c hconid =>
    obtain ⟨st₁, hadvance, hs⟩ := Option.bind_eq_some_iff.1 hs
    have h₁ := h.advance rfl (fun c payload he => by cases he) hadvance
    have hissued := h.held (.query q) c hconid
    have hes := h.asked q _ _ hissued.mem
    obtain ⟨client, -, rfl⟩ := advance_eq hadvance
    refine h₁.submit (.inr ⟨_, c, hissued, hes, rfl⟩) hs h₁.written
  · cases hs

theorem Home.receive (h : Home es st) (hsound : WireSound st) (hcount : st.issued.length ≤ 65536)
    (hhonest : st.Honest (.receive pkt)) (hes : .receive pkt ∈ es)
    (hs : st.receive pkt = some st') : Home es st' := by
  unfold Link.receive at hs
  split_ifs at hs with hkeep
  · rw [← Option.some.inj hs]
    exact h
  · obtain ⟨p, hp, hdata, hconid⟩ := hhonest pkt rfl (Decidable.not_not.1 hkeep)
    refine h.advance rfl (fun c payload he r hr => ?_) hs
    obtain ⟨rfl, rfl⟩ := Event.packet.inj he
    rw [← hconid] at hr
    exact ⟨pkt, p, hes, rfl, hp, hconid ▸ h.made_of_decoded hsound hcount hp hdata hr⟩

theorem written_issued {ok : Bool} (hs : st.written ok t = some st') : st'.issued = st.issued := by
  cases t with
  | query q =>
    obtain ⟨client, -, rfl⟩ := advance_eq hs
    rfl
  | datagram n => rw [← Option.some.inj hs]
  | keepalive => rw [← Option.some.inj hs]

theorem submit_issued {refused : Link → Option Link} (hs : st.submit t pkt refused = some st')
    (hrefused : refused st = some st' → st'.issued = st.issued) : st'.issued = st.issued := by
  unfold Link.submit at hs
  split at hs
  · obtain ⟨wire, -, rfl⟩ := Option.map_eq_some_iff.1 hs
    rfl
  · exact hrefused hs

/-- Ids are never taken back. -/
theorem step_issued {e : LinkEvent} (hs : st.step e = some st') :
    st.issued.length ≤ st'.issued.length := by
  cases e with
  | sendUdp n k payload dns =>
    simp only [Link.step, Link.sendUdp] at hs
    split at hs
    · obtain ⟨st₁, hadvance, hs⟩ := Option.bind_eq_some_iff.1 hs
      obtain ⟨client, -, rfl⟩ := advance_eq hadvance
      rw [submit_issued hs fun hsome => by rw [Option.some.inj hsome]]
    · obtain ⟨st₁, hadvance, rfl⟩ := Option.map_eq_some_iff.1 hs
      obtain ⟨client, -, rfl⟩ := advance_eq hadvance
      rw [Link.register, List.length_append]
      exact Nat.le_add_right _ _
    · cases hs
  | recordFlow =>
    simp only [Link.step, Link.recordFlow] at hs
    split at hs
    · obtain ⟨st₁, hadvance, hs⟩ := Option.bind_eq_some_iff.1 hs
      obtain ⟨client, -, rfl⟩ := advance_eq hadvance
      rw [submit_issued hs fun hsome => by rw [Option.some.inj hsome]]
    · cases hs
  | queryDns q dest query =>
    obtain ⟨st₁, hadvance, rfl⟩ := Option.map_eq_some_iff.1 hs
    obtain ⟨client, -, rfl⟩ := advance_eq hadvance
    rw [Link.enlist, List.length_append]
    exact Nat.le_add_right _ _
  | insertFlow q =>
    simp only [Link.step, Link.insertFlow] at hs
    split at hs
    · obtain ⟨st₁, hadvance, hs⟩ := Option.bind_eq_some_iff.1 hs
      obtain ⟨client, -, rfl⟩ := advance_eq hadvance
      rw [submit_issued hs written_issued]
    · cases hs
  | keepalive =>
    change st.submit .keepalive (.keepalive 0) some = some st' at hs
    rw [submit_issued hs fun hsome => by rw [Option.some.inj hsome]]
  | lock t | accept t n =>
    obtain ⟨wire, -, rfl⟩ := Option.map_eq_some_iff.1 hs
    exact Nat.le_refl _
  | flushed t | fail t =>
    obtain ⟨wire, -, hs⟩ := Option.bind_eq_some_iff.1 hs
    rw [written_issued hs]
  | receive pkt =>
    simp only [Link.step, Link.receive] at hs
    split_ifs at hs
    · rw [Option.some.inj hs]
    · obtain ⟨client, -, rfl⟩ := advance_eq hs
      exact Nat.le_refl _
  | timeout q | removeFlow q | finish q =>
    obtain ⟨client, -, rfl⟩ := advance_eq hs
    exact Nat.le_refl _

theorem Home.step {e : LinkEvent} (h : Home es st) (hsound : WireSound st)
    (hhonest : st.Honest e) (hfails : e.fails = false) (hs : st.step e = some st')
    (hcount : st'.issued.length ≤ 65536) : Home (es ++ [e]) st' := by
  have h := h.mono (List.subset_append_left es [e])
  have he : e ∈ es ++ [e] := List.mem_append_right _ List.mem_cons_self
  have hlt := step_issued hs
  cases e with
  | sendUdp n k payload dns => exact h.sendUdp he hs hcount
  | recordFlow => exact h.recordFlow hs
  | queryDns q dest query =>
    obtain ⟨st₁, hadvance, rfl⟩ := Option.map_eq_some_iff.1 hs
    obtain ⟨client, hclient, rfl⟩ := advance_eq hadvance
    rw [Link.enlist, List.length_append] at hcount
    cases step_moves hclient with
    | allocate hidle => exact h.allocate hcount hidle he
  | insertFlow q => exact h.insertFlow hs
  | keepalive =>
    change st.submit .keepalive (.keepalive 0) some = some st' at hs
    refine h.submit (.inl rfl) hs fun hsome => ?_
    rw [← Option.some.inj hsome]
    exact h
  | lock t =>
    obtain ⟨wire, hwire, rfl⟩ := Option.map_eq_some_iff.1 hs
    exact h.setWire (h.packets.lock hwire) (SharedStream.lock_sent hwire)
  | accept t n =>
    obtain ⟨wire, hwire, rfl⟩ := Option.map_eq_some_iff.1 hs
    exact h.setWire (h.packets.accept hwire) (SharedStream.accept_sent hwire)
  | flushed t =>
    obtain ⟨wire, hwire, hs⟩ := Option.bind_eq_some_iff.1 hs
    exact (h.setWire (h.packets.finish hwire) (SharedStream.finish_sent hwire)).written hs
  | fail t => cases hfails
  | receive pkt => exact h.receive hsound (Nat.le_trans hlt hcount) hhonest he hs
  | timeout q => exact h.advance rfl (fun c payload he => by cases he) hs
  | removeFlow q => exact h.advance rfl (fun c payload he => by cases he) hs
  | finish q => exact h.advance rfl (fun c payload he => by cases he) hs

theorem home_initial : Home [] .initial where
  inv := inv_initial
  next := rfl
  held r c hr := by cases r <;> cases hr
  flows c f hf := by cases hf
  asked q dest query hr := by cases hr
  registrar k c n payload dns hreg := by cases hreg
  packets := SharedStream.every_initial
  replies source payload hr := by cases hr
  answers q payload hr := by cases hr

end Steps

section Runs
variable {st : Link} {es : List LinkEvent}

/-- As long as no write fails and no more than 65536 ids are handed out, an honest gateway's
datagrams reach only local addresses that had sent a datagram under the same id, and a query gets
only what came under the id of its own packet; the gateway had decoded those packets before. -/
theorem replies_reach_senders (hhonest : Meets Link.step Link.Honest .initial es)
    (hfails : ∀ e ∈ es, e.fails = false) (hrun : run Link.step .initial es = some st)
    (hcount : st.issued.length ≤ 65536) :
    (∀ source payload, (source, payload) ∈ st.client.replies →
      ∃ k : Key, k.1 = source ∧ st.Solicited es payload (.pair k)) ∧
    ∀ q payload, (st.client.calls q).rx = some (.got payload) →
      st.Solicited es payload (st.request (.query q)) := by
  have hhome : WireSound st ∧ (st.issued.length ≤ 65536 → Home es st) := by
    refine run_history (I := fun es st => WireSound st ∧ (st.issued.length ≤ 65536 → Home es st)) ?_
      ⟨⟨SharedStream.whole_initial, SharedStream.every_initial⟩, fun _ => home_initial⟩
      (hhonest.and_labels hfails) hrun
    intro es s e s' ⟨hsound, hhome⟩ ⟨hok, hfails⟩ hs
    have hmoves := step_wire hs hfails
    refine ⟨⟨hmoves.whole hsound.whole, hmoves.every_built hsound.built⟩, fun hle => ?_⟩
    exact (hhome (Nat.le_trans (step_issued hs) hle)).step hsound hok hfails hs hle
  exact ⟨(hhome.2 hcount).replies, (hhome.2 hcount).answers⟩

/-- The datagram of `twoWriters` is written too, and the gateway answers both. -/
def bothAnswered : List LinkEvent :=
  twoWriters ++ [.accept (.datagram 0) 8, .flushed (.datagram 0),
    .receive (.data 1 earlyPair.2 [9] false false), .receive (.data 2 earlyPair.2 [8] true false)]

theorem both_replies_reach_senders : ∃ st, run Link.step .initial bothAnswered = some st ∧
    st.client.replies = [(earlyPair.1, [9])] ∧ (st.client.calls 0).rx = some (.got [8]) ∧
      (∃ k : Key, k.1 = earlyPair.1 ∧ st.Solicited bothAnswered [9] (.pair k)) ∧
        st.Solicited bothAnswered [8] (.query 0 earlyPair.2 [3]) := by
  have hend : ∃ st, run Link.step .initial bothAnswered = some st ∧
      st.client.replies = [(earlyPair.1, [9])] ∧ (st.client.calls 0).rx = some (.got [8]) ∧
        st.request (.query 0) = .query 0 earlyPair.2 [3] ∧ st.issued.length ≤ 65536 :=
    ⟨_, rfl, rfl, rfl, rfl, by decide⟩
  obtain ⟨st, hrun, hreplies, hanswer, hrequest, hcount⟩ := hend
  obtain ⟨hdatagrams, hqueries⟩ := replies_reach_senders (by decide) (by decide) hrun hcount
  refine ⟨st, hrun, hreplies, hanswer, hdatagrams _ _ ?_, hrequest ▸ hqueries 0 [8] hanswer⟩
  rw [hreplies]
  exact List.mem_cons_self

end Runs

end EasyConnection.Udpgw
