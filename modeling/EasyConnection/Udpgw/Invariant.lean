import EasyConnection.Udpgw.Client

/-! # What the UDPGW client preserves

The two maps agree with the calls in progress as long as no connection id is handed out that
somebody still holds. Each lemma below follows one of the insertions and removals.
-/
namespace EasyConnection.Udpgw
open Net

/-- What holds between the maps and the calls. -/
structure Inv (st : State) : Prop where
  flowOf : ∀ r c, Live st r c → st.flows c = some r.flow
  uniq : ∀ r r' c, Holds st r c → Holds st r' c → r = r'
  flowCall : ∀ c q, st.flows c = some (.dns q) →
    (st.calls q).PendingAt c ∨ st.calls q = .removing c
  lock : ∀ k c, st.registering = some (k, c) → st.keys k = some c

variable {r : Requester}

section Calls
variable {call : Call} {c : UInt16}

theorem Call.PendingAt.conid (h : call.PendingAt c) : call.conid = some c := by
  rcases h with rfl | rfl <;> rfl

/-- A call that still has its flow. -/
theorem Call.conid_of_flow (h : call.PendingAt c ∨ call = .removing c) : call.conid = some c := by
  rcases h with hp | rfl
  · exact hp.conid
  · rfl

theorem Call.setRx_conid (rx : Rx) : (call.setRx rx).conid = call.conid := by
  unfold Call.setRx
  split <;> rfl

theorem Call.not_pending_setRx {rx : Rx} (hrx : rx ≠ .pending) : ¬ (call.setRx rx).PendingAt c := by
  unfold Call.setRx
  split
  · simpa [Call.PendingAt] using fun _ => hrx
  · simpa [Call.PendingAt] using fun _ => hrx
  · next hw hn =>
    rintro (rfl | rfl)
    · exact hw c rfl
    · exact hn c rfl

theorem Live.holds {st : State} (h : Live st r c) : Holds st r c := by
  cases r with
  | pair k => exact h.1
  | query q => exact Call.PendingAt.conid h

end Calls

variable {q : ℕ}

theorem holds_setCall {st : State} {call : Call}
    (hconid : ∀ c, call.conid = some c → Holds st (.query q) c) {c : UInt16}
    (h : Holds (st.setCall q call) r c) : Holds st r c := by
  cases r with
  | pair k => exact h
  | query q' =>
    by_cases hq : q' = q
    · subst hq
      exact hconid c (by simpa only [Holds, State.setCall, Function.update_self] using h)
    · simpa only [Holds, State.setCall, Function.update_of_ne hq] using h

namespace Inv
variable {st : State}

theorem conid_of_flow (h : Inv st) {c : UInt16} (hf : st.flows c = some (.dns q)) :
    (st.calls q).conid = some c := Call.conid_of_flow (h.flowCall c q hf)

/-- A call goes on without a new id and without losing its flow. -/
theorem setCall (h : Inv st) {call : Call}
    (hconid : ∀ c, call.conid = some c → (st.calls q).conid = some c)
    (hpend : ∀ c, call.PendingAt c → (st.calls q).PendingAt c)
    (hflow : ∀ c, st.flows c = some (.dns q) → call.PendingAt c ∨ call = .removing c) :
    Inv (st.setCall q call) := by
  refine ⟨fun r c hr => ?_, fun r r' c hr hr' => ?_, fun c q' hf => ?_, h.lock⟩
  · cases r with
    | pair k => exact h.flowOf (.pair k) c hr
    | query q' =>
      by_cases hq : q' = q
      · subst hq
        exact h.flowOf (.query q') c (hpend c (by simpa [Live, State.setCall] using hr))
      · exact h.flowOf (.query q') c
          (by simpa [Live, State.setCall, Function.update_of_ne hq] using hr)
  · exact h.uniq r r' c (holds_setCall hconid hr) (holds_setCall hconid hr')
  · by_cases hq : q' = q
    · subst hq
      simpa [State.setCall] using hflow c hf
    · simpa [State.setCall, Function.update_of_ne hq] using h.flowCall c q' hf

end Inv

variable {payload : List UInt8} {c' : UInt16}

section Put
variable {st : State} {c : UInt16} {f : Option Flow}

theorem putFlow_flows : (st.putFlow c f).flows = Function.update st.flows c f := rfl

theorem putFlow_keys : (st.putFlow c f).keys = st.keys := by
  unfold State.putFlow State.dropFlow
  dsimp only
  split <;> rfl

theorem putFlow_registering : (st.putFlow c f).registering = st.registering := by
  unfold State.putFlow State.dropFlow
  dsimp only
  split <;> rfl

theorem putFlow_nextConid : (st.putFlow c f).nextConid = st.nextConid := by
  unfold State.putFlow State.dropFlow
  dsimp only
  split <;> rfl

theorem putFlow_calls (q : ℕ) :
    (st.putFlow c f).calls q =
      if st.flows c = some (.dns q) then (st.calls q).setRx .closed else st.calls q := by
  unfold State.putFlow State.dropFlow
  dsimp only
  split
  · next q' hf =>
    by_cases hq : q = q'
    · subst hq
      simp [State.setCall, hf]
    · simp [State.setCall, Function.update_of_ne hq, hf, Ne.symm hq]
  · next hf =>
    rw [if_neg (hf q)]

theorem putFlow_holds (r : Requester) (c' : UInt16) :
    Holds (st.putFlow c f) r c' ↔ Holds st r c' := by
  cases r with
  | pair k => simp only [Holds, putFlow_keys]
  | query q =>
    simp only [Holds, putFlow_calls]
    split_ifs
    · rw [Call.setRx_conid]
    · rfl

theorem holds_putCall {call : Call} (hq : Holds st (.query q) c)
    (hconid : ∀ c', call.conid = some c' → c' = c)
    (h : Holds ((st.putFlow c f).setCall q call) r c') : Holds st r c' := by
  rw [← putFlow_holds (c := c) (f := f)]
  refine holds_setCall (fun c'' hc'' => ?_) h
  rw [putFlow_holds, hconid c'' hc'']
  exact hq

/-- The flows of everyone but the holder of the id stay as they are. -/
theorem Inv.putFlow_flowOf (h : Inv st) {r' : Requester} (hr : Holds st r c) (hne : r' ≠ r)
    (hlive : Live (st.putFlow c f) r' c') : (st.putFlow c f).flows c' = some r'.flow := by
  have hlive' : Live st r' c' := by
    cases r' with
    | pair k => simpa only [Live, putFlow_keys, putFlow_registering] using hlive
    | query q =>
      simp only [Live, putFlow_calls] at hlive ⊢
      split_ifs at hlive with hf
      · exact absurd hlive (Call.not_pending_setRx (by decide))
      · exact hlive
  have hc : c' ≠ c := by
    rintro rfl
    exact hne (h.uniq r' r c' hlive'.holds hr)
  rw [putFlow_flows, Function.update_of_ne hc]
  exact h.flowOf r' c' hlive'

theorem Inv.putFlow_flowCall (h : Inv st) (hc : c' ≠ c)
    (hf : (st.putFlow c f).flows c' = some (.dns q)) :
    ((st.putFlow c f).calls q).PendingAt c' ∨ (st.putFlow c f).calls q = .removing c' := by
  rw [putFlow_flows, Function.update_of_ne hc] at hf
  rw [putFlow_calls, if_neg]
  · exact h.flowCall c' q hf
  · intro hfc
    have hsame := (h.conid_of_flow hf).symm.trans (h.conid_of_flow hfc)
    exact hc (Option.some.inj hsame)

/-- An answered query leaves its id as a removed flow would. -/
theorem answer_eq_putFlow (hf : st.flows c = some (.dns q)) :
    st.answer c q payload =
      (st.putFlow c none).setCall q ((st.calls q).setRx (.got payload)) := by
  simp only [State.answer, State.putFlow, State.dropFlow, State.setCall, hf, Function.update_idem]

theorem deliver_eq {source : SocketAddr} (hf : st.flows c = some (.udp source)) :
    st.deliver c source payload = { st with replies := (source, payload) :: st.replies } := by
  rw [State.deliver, ← hf, Function.update_eq_self]

end Put

variable {k : Key}

section Holders
variable {st : State} {c : UInt16}

theorem holds_record (h : Holds (st.record k) r c) :
    (r = .pair k ∧ c = st.nextConid) ∨ Holds st r c := by
  cases r with
  | pair k' =>
    by_cases hk : k' = k
    · subst hk
      simp only [Holds, State.record, Function.update_self, Option.some.injEq] at h
      exact .inl ⟨rfl, h.symm⟩
    · simp only [Holds, State.record, Function.update_of_ne hk] at h
      exact .inr h
  | query q => exact .inr h

theorem holds_release : Holds st.release r c ↔ Holds st r c := by
  cases r <;> rfl

theorem holds_allocate (h : Holds (st.allocate q) r c) :
    (r = .query q ∧ c = st.nextConid) ∨ Holds st r c := by
  cases r with
  | pair k => exact .inr h
  | query q' =>
    by_cases hq : q' = q
    · subst hq
      simp only [Holds, State.allocate, State.setCall, Function.update_self, Call.conid,
        Option.some.injEq] at h
      exact .inl ⟨rfl, h.symm⟩
    · simp only [Holds, State.allocate, State.setCall, Function.update_of_ne hq] at h
      exact .inr h

end Holders

/-- Nobody holds the id. -/
def Free (st : State) (c : UInt16) : Prop := ∀ r, ¬ Holds st r c

/-- An id that is handed out is one that nobody holds. -/
def FreshConid (st : State) : Event → Prop
  | .sendUdp k => st.keys k = none → Free st st.nextConid
  | .queryDns _ => Free st st.nextConid
  | _ => True

variable {st' : State}

namespace Inv
variable {st : State}

/-- A free id may be given to one requester more. -/
theorem uniq_of_free (h : Inv st) {new : Requester} {n : UInt16} (hfree : Free st n)
    (hold : ∀ r c, Holds st' r c → (r = new ∧ c = n) ∨ Holds st r c) (r r' : Requester) (c : UInt16)
    (hr : Holds st' r c) (hr' : Holds st' r' c) : r = r' := by
  rcases hold r c hr with ⟨rfl, rfl⟩ | hr
  · rcases hold r' c hr' with ⟨rfl, _⟩ | hr'
    · rfl
    · exact absurd hr' (hfree r')
  · rcases hold r' c hr' with ⟨rfl, rfl⟩ | hr'
    · exact absurd hr (hfree r)
    · exact h.uniq r r' c hr hr'

theorem record (h : Inv st) (hlock : st.registering = none) (hfree : Free st st.nextConid) :
    Inv (st.record k) where
  flowOf := by
    rintro (k' | q) c hr
    · obtain ⟨hkey, hreg⟩ := hr
      by_cases hk : k' = k
      · subst hk
        simp only [State.record, Function.update_self, Option.some.injEq] at hkey
        subst hkey
        exact absurd rfl hreg
      · simp only [State.record, Function.update_of_ne hk] at hkey
        exact h.flowOf (.pair k') c ⟨hkey, by simp [hlock]⟩
    · exact h.flowOf (.query q) c hr
  uniq := h.uniq_of_free hfree fun _ _ => holds_record
  flowCall := h.flowCall
  lock := by
    intro k' c hreg
    simp only [State.record, Option.some.injEq, Prod.mk.injEq] at hreg
    obtain ⟨rfl, rfl⟩ := hreg
    exact Function.update_self _ _ _

variable {c : UInt16}

theorem recordFlow (h : Inv st) (hreg : st.registering = some (k, c)) :
    Inv (st.putFlow c (some (.udp k.1))).release := by
  have hkey : Holds st (.pair k) c := h.lock k c hreg
  refine ⟨fun r c' hr => ?_, fun r r' c' hr hr' => ?_, fun c' q hf => ?_, fun _ _ h => by cases h⟩
  · by_cases hrk : r = .pair k
    · subst hrk
      have hc : st.keys k = some c' := by
        simpa only [State.release, putFlow_keys] using hr.1
      obtain rfl : c = c' := Option.some.inj (hkey.symm.trans hc)
      exact Function.update_self _ _ _
    · refine h.putFlow_flowOf hkey hrk ?_
      cases r with
      | query q => exact hr
      | pair k' =>
        refine ⟨hr.1, ?_⟩
        rw [putFlow_registering, hreg]
        rintro ⟨⟩
        exact hrk rfl
  · rw [holds_release, putFlow_holds] at hr hr'
    exact h.uniq r r' c' hr hr'
  · by_cases hc : c' = c
    · subst hc
      have hsame : (st.putFlow c' (some (.udp k.1))).flows c' = some (.udp k.1) :=
        Function.update_self _ _ _
      cases hsame.symm.trans hf
    · exact h.putFlow_flowCall hc hf

theorem allocate (h : Inv st) (hidle : st.calls q = .idle) (hfree : Free st st.nextConid) :
    Inv (st.allocate q) where
  flowOf := by
    rintro (k | q') c hr
    · exact h.flowOf (.pair k) c hr
    · by_cases hq : q' = q
      · subst hq
        simp [Live, State.allocate, State.setCall, Call.PendingAt] at hr
      · simp only [Live, State.allocate, State.setCall, Function.update_of_ne hq] at hr
        exact h.flowOf (.query q') c hr
  uniq := h.uniq_of_free hfree fun _ _ => holds_allocate
  flowCall := by
    intro c q' hf
    have hq : q' ≠ q := by
      rintro rfl
      have hconid := h.conid_of_flow hf
      rw [hidle] at hconid
      cases hconid
    simp only [State.allocate, State.setCall, Function.update_of_ne hq]
    exact h.flowCall c q' hf
  lock := h.lock

/-- A query changes the flow of its own id, and waits on it if and only if it is its own. -/
theorem putCall (h : Inv st) {f : Option Flow} {call : Call} (hq : Holds st (.query q) c)
    (hconid : ∀ c', call.conid = some c' → c' = c) (hpend : call.PendingAt c → f = some (.dns q))
    (hflow : ∀ q', f = some (.dns q') → q' = q ∧ call.PendingAt c) :
    Inv ((st.putFlow c f).setCall q call) := by
  have hholds {r : Requester} {c' : UInt16}
      (hr : Holds ((st.putFlow c f).setCall q call) r c') : Holds st r c' :=
    holds_putCall hq hconid hr
  refine ⟨fun r c' hr => ?_, fun r r' c' hr hr' => h.uniq r r' c' (hholds hr) (hholds hr'),
    fun c' q' hf => ?_, fun k c' hreg => ?_⟩
  · by_cases hrq : r = .query q
    · subst hrq
      simp only [Live, State.setCall, Function.update_self] at hr
      obtain rfl := hconid c' hr.conid
      rw [hpend hr]
      exact Function.update_self _ _ _
    · refine h.putFlow_flowOf hq hrq ?_
      cases r with
      | pair k => exact hr
      | query q' =>
        have hne : q' ≠ q := fun heq => hrq (congrArg _ heq)
        simpa only [Live, State.setCall, Function.update_of_ne hne] using hr
  · by_cases hc : c' = c
    · subst hc
      have hsame : (st.putFlow c' f).flows c' = f := Function.update_self _ _ _
      obtain ⟨rfl, hpending⟩ := hflow q' (hsame.symm.trans hf)
      simp only [State.setCall, Function.update_self]
      exact .inl hpending
    · have hold := h.putFlow_flowCall hc hf
      have hne : q' ≠ q := by
        rintro rfl
        rw [← putFlow_holds (c := c) (f := f)] at hq
        exact hc (Option.some.inj ((Call.conid_of_flow hold).symm.trans hq))
      simpa only [State.setCall, Function.update_of_ne hne] using hold
  · simp only [State.setCall, putFlow_registering] at hreg
    simpa only [State.setCall, putFlow_keys] using h.lock k c' hreg

theorem insertFlow (h : Inv st) (hcall : st.calls q = .allocated c) :
    Inv ((st.putFlow c (some (.dns q))).setCall q (.writing c .pending)) := by
  refine h.putCall (by rw [Holds, hcall]; rfl) (fun c' hc' => ?_) (fun _ => rfl) fun q' hq' => ?_
  · exact (Option.some.inj hc').symm
  · exact ⟨(Flow.dns.inj (Option.some.inj hq')).symm, .inl rfl⟩

theorem removeFlow (h : Inv st) (hcall : st.calls q = .removing c) :
    Inv ((st.putFlow c none).setCall q .idle) := by
  refine h.putCall (by rw [Holds, hcall]; rfl) (fun c' hc' => ?_) (fun hp => ?_) fun q' hq' => ?_
  · cases hc'
  · cases hp.conid
  · cases hq'

theorem answer (h : Inv st) (hf : st.flows c = some (.dns q)) : Inv (st.answer c q payload) := by
  rw [answer_eq_putFlow hf]
  refine h.putCall (h.conid_of_flow hf) (fun c' hc' => ?_) (fun hp => ?_) fun q' hq' => ?_
  · rw [Call.setRx_conid, h.conid_of_flow hf] at hc'
    exact (Option.some.inj hc').symm
  · exact absurd hp (Call.not_pending_setRx (by simp))
  · cases hq'

theorem deliver (h : Inv st) {source : SocketAddr} (hf : st.flows c = some (.udp source)) :
    Inv (st.deliver c source payload) := by
  rw [deliver_eq hf]
  exact ⟨h.flowOf, h.uniq, h.flowCall, h.lock⟩

theorem rx_of_flow (h : Inv st) {rx : Rx}
    (hcall : st.calls q = .writing c rx ∨ st.calls q = .waiting c rx)
    (hf : st.flows c' = some (.dns q)) : c' = c ∧ rx = .pending := by
  rcases h.flowCall c' q hf with (hp | hp) | hr <;> rcases hcall with hcall | hcall
  · cases hp.symm.trans hcall
    exact ⟨rfl, rfl⟩
  · cases hp.symm.trans hcall
  · cases hp.symm.trans hcall
  · cases hp.symm.trans hcall
    exact ⟨rfl, rfl⟩
  · cases hr.symm.trans hcall
  · cases hr.symm.trans hcall

theorem written (h : Inv st) {rx : Rx} {ok : Bool} (hcall : st.calls q = .writing c rx) :
    Inv (st.setCall q (if ok then .waiting c rx else .removing c)) := by
  cases ok with
  | true =>
    refine h.setCall (fun c' hc' => by rw [hcall]; exact hc') (fun c' hp => ?_) fun c' hf => ?_
    · rw [hcall]
      rcases hp with hp | hp
      · cases hp
      · cases hp
        exact .inl rfl
    · obtain ⟨rfl, rfl⟩ := h.rx_of_flow (.inl hcall) hf
      exact .inl (.inr rfl)
  | false =>
    refine h.setCall (fun c' hc' => by rw [hcall]; exact hc') (fun c' hp => ?_) fun c' hf => ?_
    · rcases hp with hp | hp <;> cases hp
    · obtain ⟨rfl, rfl⟩ := h.rx_of_flow (.inl hcall) hf
      exact .inr rfl

theorem timeout (h : Inv st) (hcall : st.calls q = .waiting c .pending) :
    Inv (st.setCall q (.removing c)) := by
  refine h.setCall (fun c' hc' => by rw [hcall]; exact hc') (fun c' hp => ?_) fun c' hf => ?_
  · rcases hp with hp | hp <;> cases hp
  · obtain ⟨rfl, _⟩ := h.rx_of_flow (.inr hcall) hf
    exact .inr rfl

theorem finish (h : Inv st) {rx : Rx} (hcall : st.calls q = .waiting c rx) (hrx : rx ≠ .pending) :
    Inv (st.setCall q .idle) := by
  refine h.setCall (fun c' hc' => by cases hc') (fun c' hp => ?_) fun c' hf => ?_
  · rcases hp with hp | hp <;> cases hp
  · exact absurd (h.rx_of_flow (.inr hcall) hf).2 hrx

end Inv

theorem inv_initial : Inv State.initial where
  flowOf := by
    rintro (k | q) c h
    · cases h.1
    · rcases h with h | h <;> cases h
  uniq := by
    rintro (k | q) r' c h <;> cases h
  flowCall := by
    intro c q h
    cases h
  lock := by
    intro k c h
    cases h

theorem inv_step {st : State} {e : Event} (h : Inv st) (hfresh : FreshConid st e)
    (hs : step st e = some st') : Inv st' := by
  cases step_moves hs with
  | known hkey => exact h
  | record hlock hkey => exact h.record hlock (hfresh hkey)
  | recordFlow hreg => exact h.recordFlow hreg
  | allocate hcall => exact h.allocate hcall hfresh
  | insertFlow hcall => exact h.insertFlow hcall
  | written hcall => exact h.written hcall
  | answer hf => exact h.answer hf
  | deliver hf => exact h.deliver hf
  | unknown hf => exact h
  | timeout hcall => exact h.timeout hcall
  | removeFlow hcall => exact h.removeFlow hcall
  | finish hcall hrx => exact h.finish hcall hrx

/-- A step hands out the next id to one requester, or no id at all. -/
theorem step_holds {st : State} {e : Event} (hs : step st e = some st') :
    (st'.nextConid = st.nextConid ∧ ∀ r c, Holds st' r c → Holds st r c) ∨
    (e.allocates = true ∧ st'.nextConid = st.nextConid + 1 ∧
      ∃ new, ∀ r c, Holds st' r c → (r = new ∧ c = st.nextConid) ∨ Holds st r c) := by
  cases step_moves hs with
  | known hkey => exact .inl ⟨rfl, fun _ _ h => h⟩
  | @record k hlock hkey => exact .inr ⟨rfl, rfl, .pair k, fun _ _ => holds_record⟩
  | recordFlow hreg =>
    refine .inl ⟨?_, fun r c h => (putFlow_holds r c).1 (holds_release.1 h)⟩
    simp only [State.release, putFlow_nextConid]
  | @allocate q hcall => exact .inr ⟨rfl, rfl, .query q, fun _ _ => holds_allocate⟩
  | @insertFlow q c hcall =>
    have hq : Holds st (.query q) c := by
      rw [Holds, hcall]
      rfl
    refine .inl ⟨?_, fun r c' h => holds_putCall hq (fun c'' hc => ?_) h⟩
    · simp only [State.setCall, putFlow_nextConid]
    · cases hc
      rfl
  | @written q c rx ok hcall =>
    refine .inl ⟨rfl, fun r c' h => holds_setCall (fun c'' hc => ?_) h⟩
    rw [Holds, hcall]
    cases ok <;> exact hc
  | @answer c q payload hf =>
    refine .inl ⟨rfl, fun r c' h => ?_⟩
    have hset : Holds (st.setCall q ((st.calls q).setRx (.got payload))) r c' := by
      cases r <;> exact h
    exact holds_setCall (fun c'' hc => by rwa [Call.setRx_conid] at hc) hset
  | deliver hf => exact .inl ⟨rfl, fun r c' h => by cases r <;> exact h⟩
  | unknown hf => exact .inl ⟨rfl, fun _ _ h => h⟩
  | timeout hcall =>
    refine .inl ⟨rfl, fun r c' h => holds_setCall (fun c'' hc => ?_) h⟩
    rw [Holds, hcall]
    exact hc
  | @removeFlow q c hcall =>
    have hq : Holds st (.query q) c := by
      rw [Holds, hcall]
      rfl
    refine .inl ⟨?_, fun r c' h => holds_putCall hq (fun c'' hc => ?_) h⟩
    · simp only [State.setCall, putFlow_nextConid]
    · cases hc
  | finish hcall hrx => exact .inl ⟨rfl, fun r c' h => holds_setCall (fun _ hc => by cases hc) h⟩

end EasyConnection.Udpgw
