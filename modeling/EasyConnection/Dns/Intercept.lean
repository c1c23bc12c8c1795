import EasyConnection.Dns.Pool
import EasyConnection.Dns.Resolve
import Mathlib.Data.List.Nodup

/-! # The DNS intercept

Every datagram that the intercept receives is resolved by a task of its own, and the answer goes
back to where the datagram came from. The tasks share the pool of TCP streams; the `k`-th call
of a task is a lookup of its own there.
-/
namespace EasyConnection.Dns
open Async Net Config

inductive Task where
  | idle
  | running (source : SocketAddr) (query : List UInt8) (turn : ℕ)
      (p : ResolveM (Option (List UInt8)))
  | done (source : SocketAddr) (query : List UInt8)

/-- The datagram of a task. -/
def Task.datagram : Task → Option (SocketAddr × List UInt8)
  | .idle => none
  | .running source query _ _ => some (source, query)
  | .done source query => some (source, query)

structure Intercept (ι : Type) where
  pool : Pool (ι × ℕ)
  tasks : ι → Task
  /-- The answers that have been sent, with the tasks that have sent them. -/
  sent : List (ι × SocketAddr × List UInt8)
  /-- What has been tried. -/
  tried : List Attempt

inductive InterceptEvent (ι : Type) where
  | receive (i : ι) (source : SocketAddr) (query : List UInt8)
  /-- `query_dns` returns. -/
  | gateway (i : ι) (answer : Option (List UInt8))
  | exchange (i : ι)
  | pool (e : PoolEvent (ι × ℕ))
  /-- The pool's `exchange` returns. -/
  | exchanged (i : ι)
  | send (i : ι)

def PoolEvent.begins {ι : Type} : PoolEvent ι → Bool
  | .exchange _ _ _ => true
  | _ => false

namespace Intercept
variable {ι : Type}

def initial : Intercept ι := ⟨.initial, fun _ => .idle, [], []⟩

variable [DecidableEq ι] (servers : List String) (udpgw : Bool) (dnsOverTcp : DnsOverTcp)
  (st : Intercept ι)

def setTask (i : ι) (t : Task) : Intercept ι := { st with tasks := Function.update st.tasks i t }

def step : InterceptEvent ι → Option (Intercept ι)
  | .receive i source query =>
    match st.tasks i with
    | .idle => some (st.setTask i
        (.running source query 0 (resolveDnsQuery servers udpgw dnsOverTcp)))
    | _ => none
  | .gateway i answer =>
    match st.tasks i with
    | .running source query turn (.call (.gateway dest) k) =>
      some { st.setTask i (.running source query (turn + 1) (k answer)) with
        tried := st.tried ++ [.gateway dest] }
    | _ => none
  | .exchange i =>
    match st.tasks i with
    | .running _ query turn (.call (.tcp host) _) =>
      (st.pool.step (.exchange (i, turn) query host)).map fun pool =>
        { st with pool, tried := st.tried ++ [.tcp host] }
    | _ => none
  | .pool e =>
    if e.begins then none else (st.pool.step e).map fun pool => { st with pool }
  | .exchanged i =>
    match st.tasks i with
    | .running source query turn (.call (.tcp _) k) =>
      match st.pool.lookups (i, turn) with
      | .returned _ result => some (st.setTask i
          (.running source query (turn + 1) (k (result.map Prod.fst))))
      | _ => none
    | _ => none
  | .send i =>
    match st.tasks i with
    | .running source query _ (.ret (some resp)) =>
      some { st.setTask i (.done source query) with sent := st.sent ++ [(i, source, resp)] }
    | .running source query _ (.ret none) => some (st.setTask i (.done source query))
    | _ => none

end Intercept

section Invariant
variable {ι : Type} {servers : List String} {udpgw : Bool} {dnsOverTcp : DnsOverTcp}
  {es : List (InterceptEvent ι)} {st st' : Intercept ι} {i : ι} {query resp : List UInt8}

/-- The response is an answer to the query of a task: from the gateway, or from a server on a
stream to which the task has written the query. -/
def Obtained (es : List (InterceptEvent ι)) (pool : Pool (ι × ℕ)) (i : ι)
    (query resp : List UInt8) : Prop :=
  (.gateway i (some resp) ∈ es ∧ resp ≠ []) ∨ ∃ k s,
    pool.lookups (i, k) = .returned query (some (resp, s)) ∧ s.Answered (i, k) query resp

/-- A task has still something of the plan to try, or it has an answer. -/
def Task.Fine (plan : List Attempt) (es : List (InterceptEvent ι)) (pool : Pool (ι × ℕ)) (i : ι) :
    Task → Prop
  | .running _ query _ p => (∃ os, os <:+ plan ∧ p = Prog.firstSome accepted os) ∨
      ∃ resp, p = .ret (some resp) ∧ Obtained es pool i query resp
  | _ => True

structure Intercept.Inv (plan : List Attempt) (es : List (InterceptEvent ι)) (st : Intercept ι) :
    Prop where
  pool : st.pool.Inv
  tasks : ∀ i, (st.tasks i).Fine plan es st.pool i
  received : ∀ i source query, (st.tasks i).datagram = some (source, query) →
    .receive i source query ∈ es
  asked : ∀ i k q, (st.pool.lookups (i, k)).query = some q →
    ∃ source, (st.tasks i).datagram = some (source, q)
  tried : ∀ o ∈ st.tried, o ∈ plan
  sent : ∀ a ∈ st.sent, ∃ query, st.tasks a.1 = .done a.2.1 query ∧
    Obtained es st.pool a.1 query a.2.2
  once : (st.sent.map Prod.fst).Nodup

theorem Obtained.mono {es' : List (InterceptEvent ι)} {pool pool' : Pool (ι × ℕ)}
    (h : Obtained es pool i query resp) (hes : es ⊆ es')
    (hpool : ∀ j q r, pool.lookups j = .returned q r → pool'.lookups j = .returned q r) :
    Obtained es' pool' i query resp := by
  rcases h with ⟨hmem, hne⟩ | ⟨k, s, hreturned, hanswered⟩
  · exact .inl ⟨hes hmem, hne⟩
  · exact .inr ⟨k, s, hpool _ _ _ hreturned, hanswered⟩

theorem Task.Fine.mono {plan : List Attempt} {es' : List (InterceptEvent ι)}
    {pool pool' : Pool (ι × ℕ)} {t : Task} (h : t.Fine plan es pool i) (hes : es ⊆ es')
    (hpool : ∀ j q r, pool.lookups j = .returned q r → pool'.lookups j = .returned q r) :
    t.Fine plan es' pool' i := by
  cases t with
  | running source query turn p =>
    rcases h with hrest | ⟨resp, hp, hobtained⟩
    · exact .inl hrest
    · exact .inr ⟨resp, hp, hobtained.mono hes hpool⟩
  | idle => trivial
  | done source query => trivial

theorem Intercept.inv_initial (plan : List Attempt) : Intercept.Inv plan [] (.initial : Intercept ι)
    where
  pool := Pool.inv_initial
  tasks _ := trivial
  received _ _ _ h := by cases h
  asked _ _ _ h := by cases h
  tried _ h := by cases h
  sent _ h := by cases h
  once := List.nodup_nil

variable {source : SocketAddr}

/-- What a task tries is planned. -/
theorem Intercept.Inv.mem_attempts {attempts : List Attempt} (h : Inv attempts es st) {turn : ℕ}
    {o : Attempt} {k : o.Answer → ResolveM (Option (List UInt8))}
    (htask : st.tasks i = .running source query turn (.call o k)) :
    ∀ o' ∈ st.tried ++ [o], o' ∈ attempts := by
  have hfine := h.tasks i
  rw [htask] at hfine
  rcases hfine with ⟨os, hos, hp⟩ | ⟨resp, hp, -⟩
  · obtain ⟨rest, rfl, -⟩ := Prog.firstSome_eq_call accepted hp.symm
    intro o' ho'
    rcases List.mem_append.1 ho' with ho' | ho'
    · exact h.tried o' ho'
    · obtain rfl := List.mem_singleton.1 ho'
      exact hos.subset List.mem_cons_self
  · cases hp

theorem Intercept.Inv.push {attempts : List Attempt} (h : Inv attempts es st)
    (hdone : st.tasks i = .done source query) (hobtained : Obtained es st.pool i query resp)
    (hnew : i ∉ st.sent.map Prod.fst) :
    Inv attempts es { st with sent := st.sent ++ [(i, source, resp)] } where
  pool := h.pool
  tasks := h.tasks
  received := h.received
  asked := h.asked
  tried := h.tried
  sent a ha := by
    rcases List.mem_append.1 ha with ha | ha
    · exact h.sent a ha
    · obtain rfl := List.mem_singleton.1 ha
      exact ⟨query, hdone, hobtained⟩
  once := by
    rw [List.map_append, List.map_singleton]
    refine List.nodup_append.2 ⟨h.once, List.nodup_singleton i, fun a ha b hb => ?_⟩
    obtain rfl := List.mem_singleton.1 hb
    rintro rfl
    exact hnew ha

variable [DecidableEq ι] {attempts : List Attempt} {e : InterceptEvent ι} {t : Task}

namespace Intercept
variable {tried : List Attempt}

/-- A task that has not sent its answer goes on. -/
theorem Inv.setTask (h : Inv attempts es st)
    (hopen : ∀ source query, st.tasks i ≠ .done source query)
    (hkeep : ∀ d, (st.tasks i).datagram = some d → t.datagram = some d)
    (hreceived : ∀ source query, t.datagram = some (source, query) →
      .receive i source query ∈ es ++ [e]) (hfine : t.Fine attempts (es ++ [e]) st.pool i)
    (htried : ∀ o ∈ tried, o ∈ attempts) :
    Inv attempts (es ++ [e]) { st.setTask i t with tried } where
  pool := h.pool
  tasks := (Function.forall_update_iff _
    fun j (t : Task) => t.Fine attempts (es ++ [e]) st.pool j).2
      ⟨hfine, fun j _ => (h.tasks j).mono (List.subset_append_left _ _) fun _ _ _ => id⟩
  received := (Function.forall_update_iff _ fun j (t : Task) => ∀ source query,
    t.datagram = some (source, query) → InterceptEvent.receive j source query ∈ es ++ [e]).2
      ⟨hreceived, fun j _ source query hj => List.mem_append_left _ (h.received j source query hj)⟩
  asked := by
    refine (Function.forall_update_iff _ fun j (t : Task) => ∀ k q,
      (st.pool.lookups (j, k)).query = some q → ∃ source, t.datagram = some (source, q)).2
        ⟨fun k q hq => ?_, fun j _ => h.asked j⟩
    obtain ⟨source, hsource⟩ := h.asked i k q hq
    exact ⟨source, hkeep _ hsource⟩
  tried := htried
  sent a ha := by
    obtain ⟨query, hdone, hobtained⟩ := h.sent a ha
    have hne : a.1 ≠ i := by
      rintro rfl
      exact hopen _ _ hdone
    exact ⟨query, (Function.update_of_ne hne ..).trans hdone,
      hobtained.mono (List.subset_append_left _ _) fun _ _ _ => id⟩
  once := h.once

/-- The pool goes on, with the queries of the tasks. -/
theorem Inv.step_pool {p : Pool (ι × ℕ)} {pe : PoolEvent (ι × ℕ)} (h : Inv attempts es st)
    (hs : st.pool.step pe = some p)
    (hbegins : ∀ j k q host, pe = .exchange (j, k) q host →
      ∃ source, (st.tasks j).datagram = some (source, q)) (htried : ∀ o ∈ tried, o ∈ attempts) :
    Inv attempts (es ++ [e]) { st with pool := p, tried } where
  pool := h.pool.step hs
  tasks j := (h.tasks j).mono (List.subset_append_left _ _) fun _ _ _ hreturned =>
    Pool.step_returned hreturned hs
  received j source query hj := List.mem_append_left _ (h.received j source query hj)
  asked j k q hq := by
    rcases Pool.step_query hs hq with hq | ⟨host, hexchange⟩
    · exact h.asked j k q hq
    · exact hbegins j k q host hexchange
  tried := htried
  sent a ha := by
    obtain ⟨query, hdone, hobtained⟩ := h.sent a ha
    exact ⟨query, hdone, hobtained.mono (List.subset_append_left _ _) fun _ _ _ hreturned =>
      Pool.step_returned hreturned hs⟩
  once := h.once

/-- What a task does after a call: it has its answer, or it goes on with the rest. -/
theorem Inv.next (h : Inv attempts es st) {turn : ℕ} {o : Attempt}
    {k : o.Answer → ResolveM (Option (List UInt8))} {answer : o.Answer}
    (htask : st.tasks i = .running source query turn (.call o k))
    (hobtained : ∀ resp, accepted o answer = some resp →
      Obtained (es ++ [e]) st.pool i query resp) (htried : ∀ o ∈ tried, o ∈ attempts) :
    Inv attempts (es ++ [e])
      { st.setTask i (.running source query (turn + 1) (k answer)) with tried } := by
  have hfine := h.tasks i
  rw [htask] at hfine
  rcases hfine with ⟨os, hos, hp⟩ | ⟨resp, hp, -⟩
  · obtain ⟨rest, rfl, rfl⟩ := Prog.firstSome_eq_call accepted hp.symm
    have hrest : rest <:+ attempts := (List.suffix_cons o rest).trans hos
    refine h.setTask (fun _ _ hdone => ?_) (fun d hd => ?_) (fun s q hd => ?_) ?_ htried
    · rw [htask] at hdone
      cases hdone
    · rw [htask] at hd
      exact hd
    · exact List.mem_append_left _ (h.received i s q (htask ▸ hd))
    · rcases Prog.orNext_cases accepted o (Prog.firstSome accepted rest) answer with
        ⟨resp, haccepted, hnext⟩ | hnext
      · exact .inr ⟨resp, hnext, hobtained resp haccepted⟩
      · exact .inl ⟨rest, hrest, hnext⟩
  · cases hp

theorem Inv.step (h : Inv (plan servers udpgw dnsOverTcp) es st)
    (hs : st.step servers udpgw dnsOverTcp e = some st') :
    Inv (plan servers udpgw dnsOverTcp) (es ++ [e]) st' := by
  cases e with
  | receive i source query =>
    simp only [Intercept.step] at hs
    split at hs
    · next hidle =>
      obtain rfl := Option.some.inj hs
      refine h.setTask (fun _ _ hdone => ?_) (fun d hd => ?_) (fun s q hd => ?_) ?_ h.tried
      · rw [hidle] at hdone
        cases hdone
      · rw [hidle] at hd
        cases hd
      · obtain ⟨rfl, rfl⟩ := Prod.mk.inj (Option.some.inj hd)
        exact List.mem_append_right _ List.mem_cons_self
      · exact .inl ⟨_, List.suffix_rfl, resolveDnsQuery_eq servers udpgw dnsOverTcp⟩
    · cases hs
  | gateway i answer =>
    simp only [Intercept.step] at hs
    split at hs
    · next source query turn dest k htask =>
      obtain rfl := Option.some.inj hs
      refine h.next htask (fun resp haccepted => ?_) (h.mem_attempts htask)
      obtain ⟨rfl, hne⟩ := Option.filter_eq_some_iff.1 haccepted
      exact .inl ⟨List.mem_append_right _ List.mem_cons_self, of_decide_eq_true hne⟩
    · cases hs
  | exchange i =>
    simp only [Intercept.step] at hs
    split at hs
    · next source query turn host k htask =>
      obtain ⟨p, hp, rfl⟩ := Option.map_eq_some_iff.1 hs
      refine h.step_pool hp (fun j k q host' hexchange => ?_) (h.mem_attempts htask)
      obtain ⟨hij, rfl, -⟩ := PoolEvent.exchange.inj hexchange
      obtain ⟨rfl, -⟩ := Prod.mk.inj hij
      exact ⟨source, congrArg Task.datagram htask⟩
    · cases hs
  | pool pe =>
    simp only [Intercept.step] at hs
    split_ifs at hs with hbegins
    obtain ⟨p, hp, rfl⟩ := Option.map_eq_some_iff.1 hs
    refine h.step_pool hp (fun j k q host hexchange => ?_) h.tried
    subst hexchange
    exact absurd rfl hbegins
  | exchanged i =>
    simp only [Intercept.step] at hs
    split at hs
    · next source query turn host k htask =>
      split at hs
      · next q result hreturned =>
        obtain rfl := Option.some.inj hs
        refine h.next htask (fun resp haccepted => ?_) h.tried
        obtain ⟨⟨resp', s⟩, rfl, rfl⟩ := Option.map_eq_some_iff.1 haccepted
        obtain ⟨source', hsource⟩ := h.asked i turn q (congrArg Lookup.query hreturned)
        rw [htask] at hsource
        obtain ⟨rfl, rfl⟩ := Prod.mk.inj (Option.some.inj hsource)
        have hanswered := h.pool.lookups (i, turn)
        rw [hreturned] at hanswered
        exact .inr ⟨turn, s, hreturned, hanswered⟩
      · cases hs
    · cases hs
  | send i =>
    have hclose {source : SocketAddr} {query : List UInt8} {turn : ℕ}
        {p : ResolveM (Option (List UInt8))} (htask : st.tasks i = .running source query turn p) :
        Inv (plan servers udpgw dnsOverTcp) (es ++ [.send i])
          (st.setTask i (.done source query)) := by
      refine h.setTask (fun _ _ hdone => ?_) (fun d hd => ?_) (fun s q hd => ?_) trivial h.tried
      · rw [htask] at hdone
        cases hdone
      · rw [htask] at hd
        exact hd
      · exact List.mem_append_left _ (h.received i s q (htask ▸ hd))
    simp only [Intercept.step] at hs
    split at hs
    · next source query turn resp htask =>
      obtain rfl := Option.some.inj hs
      have hfine := h.tasks i
      rw [htask] at hfine
      obtain ⟨os, -, hp⟩ | ⟨resp', hp, hobtained⟩ := hfine
      · exact absurd hp.symm (Prog.firstSome_ne_ret accepted resp)
      · cases hp
        refine (hclose htask).push (Function.update_self ..)
          (hobtained.mono (List.subset_append_left _ _) fun _ _ _ => id) fun hmem => ?_
        obtain ⟨a, ha, rfl⟩ := List.mem_map.1 hmem
        obtain ⟨query', hdone, -⟩ := h.sent a ha
        rw [htask] at hdone
        cases hdone
    · next source query turn htask =>
      obtain rfl := Option.some.inj hs
      exact hclose htask
    · cases hs

end Intercept

end Invariant

section Runs
variable {ι : Type} [DecidableEq ι] {servers : List String} {udpgw : Bool}
  {dnsOverTcp : DnsOverTcp} {es : List (InterceptEvent ι)} {st : Intercept ι}

/-- However the tasks and the pool's lookups interleave, a datagram is answered at most once, to
the address it came from, with an answer of the gateway or of a server to its own query; and only
what is planned is tried. -/
theorem answers_go_back
    (hrun : run (Intercept.step servers udpgw dnsOverTcp) .initial es = some st) :
    (st.sent.map Prod.fst).Nodup ∧
    (∀ i dest resp, (i, dest, resp) ∈ st.sent →
      ∃ query, .receive i dest query ∈ es ∧ Obtained es st.pool i query resp) ∧
    ∀ o ∈ st.tried, o ∈ plan servers udpgw dnsOverTcp := by
  have hinv : Intercept.Inv (plan servers udpgw dnsOverTcp) es st :=
    run_history (fun _ _ _ _ h _ hs => h.step hs) (Intercept.inv_initial _)
      (Meets.of_forall (fun _ _ => trivial) _ _) hrun
  refine ⟨hinv.once, fun i dest resp hsent => ?_, hinv.tried⟩
  obtain ⟨query, hdone, hobtained⟩ := hinv.sent _ hsent
  exact ⟨query, hinv.received i dest query (congrArg Task.datagram hdone), hobtained⟩

/-- Two datagrams whose queries go over one stream. -/
def twoDatagrams : List (InterceptEvent Bool) :=
  [.receive false ⟨.ofOctets 10 0 0 2, 5000⟩ [5], .receive true ⟨.ofOctets 10 0 0 2, 5001⟩ [6],
    .exchange true, .exchange false, .pool (.lock (false, 0)),
    .pool (.connect (false, 0) (some countingServer)), .pool (.transfer (false, 0) 3),
    .pool (.transfer (false, 0) 2), .pool (.transfer (false, 0) 1), .pool (.lock (false, 0)),
    .pool (.lock (true, 0)), .pool (.transfer (true, 0) 3), .pool (.transfer (true, 0) 2),
    .pool (.transfer (true, 0) 1), .exchanged true, .send true, .exchanged false, .send false]

theorem twoDatagrams_go_back : ∃ st : Intercept Bool,
    run (Intercept.step ["1.1.1.1"] false .on) .initial twoDatagrams = some st ∧
    st.sent = [(true, ⟨.ofOctets 10 0 0 2, 5001⟩, [2]), (false, ⟨.ofOctets 10 0 0 2, 5000⟩, [1])] ∧
    ∃ query, Obtained twoDatagrams st.pool true query [2] := by
  have hend : ∃ st : Intercept Bool,
      run (Intercept.step ["1.1.1.1"] false .on) .initial twoDatagrams = some st ∧ st.sent =
        [(true, ⟨.ofOctets 10 0 0 2, 5001⟩, [2]), (false, ⟨.ofOctets 10 0 0 2, 5000⟩, [1])] :=
    ⟨_, rfl, rfl⟩
  obtain ⟨st, hrun, hsent⟩ := hend
  obtain ⟨-, hback, -⟩ := answers_go_back hrun
  obtain ⟨query, -, hobtained⟩ := hback true ⟨.ofOctets 10 0 0 2, 5001⟩ [2] (by simp [hsent])
  exact ⟨st, hrun, hsent, query, hobtained⟩

end Runs

end EasyConnection.Dns
