import EasyConnection.Codec.Bytes
import EasyConnection.Codec.Chunks
import EasyConnection.Codec.Str
import EasyConnection.Secrets.Vault
import Mathlib.Data.Fintype.Basic

/-! # No update is lost

Two updates that load the same vault write it back one after the other, and the first one is
gone. When no update loads while another is between its load and its rename, the vault has the
effect of every update that succeeded and of no other.
-/
namespace EasyConnection.Secrets
open Async Function

variable {ι : Type}

/-- No two updates are of one id. -/
def Distinct (st : State ι) : Prop :=
  ∀ i j req req', i ≠ j → (st.calls i).request = some req → (st.calls j).request = some req' →
    req.id ≠ req'.id

/-- The vault has the effect of the updates that succeeded, and differs in nothing else. -/
structure Effects (before vault : Entries) (st : State ι) : Prop where
  done : ∀ i req, (st.calls i).succeeded = some req → vault.lookup req.id = req.result
  others : ∀ id, (∀ i req, (st.calls i).succeeded = some req → req.id ≠ id) →
    vault.lookup id = before.lookup id

/-- An update loads only when no other one is between its load and its rename. -/
def Serial (st : State ι) : Event ι → Prop
  | .load _ _ => ∀ j, (st.calls j).holds = false
  | _ => True

instance [Fintype ι] (st : State ι) : DecidablePred (Serial st)
  | .load _ _ => inferInstanceAs (Decidable (∀ _, _))
  | .call _ _ => .isTrue trivial
  | .write _ _ _ => .isTrue trivial
  | .rename _ _ => .isTrue trivial

/-- What an update that has loaded the vault relies on. -/
def Phase.Ready (L : Library) (vault : Entries) (tmp : Option (List UInt8)) : Phase → Prop
  | .loaded req next => next = req.apply vault
  | .written req => ∃ buf, tmp = some buf ∧ load L buf = .ok (req.apply vault)
  | _ => True

structure Kept (L : Library) (before vault : Entries) (st : State ι) : Prop where
  loads : load L st.path = .ok vault
  effects : Effects before vault st
  ready : ∀ i, (st.calls i).Ready L vault st.tmp
  alone : ∀ i j, (st.calls i).holds = true → (st.calls j).holds = true → i = j

section Steps
variable {L : Library} {before vault : Entries} {st : State ι} {i : ι} {req : Request}
  {tmp : Option (List UInt8)} {ph : Phase}

theorem Phase.Ready.of_not_holds (h : ph.holds = false) : ph.Ready L vault tmp := by
  cases ph <;> trivial

theorem Kept.initial {buf : List UInt8} (h : load L buf = .ok vault) :
    Kept L vault vault (State.initial buf : State ι) where
  loads := h
  effects := ⟨nofun, fun _ _ => rfl⟩
  ready _ := trivial
  alone i j hi := by cases hi

variable {st' : State ι}

theorem Effects.congr (h : Effects before vault st)
    (hcalls : ∀ j, (st'.calls j).succeeded = (st.calls j).succeeded) :
    Effects before vault st' where
  done j req' hj := h.done j req' ((hcalls j).symm.trans hj)
  others id hid := h.others id fun j req' hj => hid j req' ((hcalls j).trans hj)

/-- An update that holds the vault is the only one. -/
theorem Kept.only (h : Kept L before vault st) (hi : (st.calls i).holds = true) (j : ι)
    (hji : j ≠ i) : (st.calls j).holds = false :=
  Bool.eq_false_iff.2 fun hj => hji (h.alone j i hj hi)

variable [DecidableEq ι]

theorem succeeded_setCall {path : List UInt8} (h : ph.succeeded = (st.calls i).succeeded) (j : ι) :
    (({ st with path := path, tmp := tmp }.setCall i ph).calls j).succeeded =
      (st.calls j).succeeded := by
  by_cases hji : j = i
  · subst hji
    simp only [State.setCall, update_self, h]
  · simp only [State.setCall, update_of_ne hji]

/-- Update `i` moves on without touching the vault. The others rely on the temporary file only if
they have loaded. -/
theorem Kept.move (h : Kept L before vault st) (hsucceeded : ph.succeeded = (st.calls i).succeeded)
    (hready : ph.Ready L vault tmp)
    (hothers : ∀ j, j ≠ i → (st.calls j).holds = true → tmp = st.tmp ∧ ph.holds = false) :
    Kept L before vault ({ st with tmp := tmp }.setCall i ph) where
  loads := h.loads
  effects := h.effects.congr (succeeded_setCall hsucceeded)
  ready j := by
    by_cases hji : j = i
    · subst hji
      simp only [State.setCall, update_self]
      exact hready
    · simp only [State.setCall, update_of_ne hji]
      by_cases hj : (st.calls j).holds = true
      · rw [(hothers j hji hj).1]
        exact h.ready j
      · exact .of_not_holds (Bool.eq_false_iff.2 hj)
  alone j k hj hk := by
    have hoff (j' : ι) (hne : j' ≠ i)
        (hj' : (({ st with tmp := tmp }.setCall i ph).calls j').holds = true) :
        (st.calls j').holds = true ∧ ph.holds = false := by
      simp only [State.setCall, update_of_ne hne] at hj'
      exact ⟨hj', (hothers j' hne hj').2⟩
    have hself (hi : (({ st with tmp := tmp }.setCall i ph).calls i).holds = true) :
        ph.holds = true := by
      simpa only [State.setCall, update_self] using hi
    by_cases hji : j = i
    · by_cases hki : k = i
      · rw [hji, hki]
      · have hph := (hoff k hki hk).2
        rw [hself (hji ▸ hj)] at hph
        cases hph
    · by_cases hki : k = i
      · have hph := (hoff j hji hj).2
        rw [hself (hki ▸ hk)] at hph
        cases hph
      · exact h.alone j k (hoff j hji hj).1 (hoff k hki hk).1

/-- The rename of update `i` gives the vault its effect. -/
theorem Kept.commit (h : Kept L before vault st) (hdistinct : Distinct st)
    (hi : st.calls i = .written req) {buf : List UInt8} (hbuf : st.tmp = some buf) :
    Kept L before (req.apply vault)
      ({ st with path := buf, tmp := none }.setCall i (.returned req (.ok ()))) := by
  have honly := h.only (i := i) (by rw [hi]; rfl)
  have hload : load L buf = .ok (req.apply vault) := by
    have hready := h.ready i
    rw [hi] at hready
    obtain ⟨buf', hbuf', hload⟩ := hready
    rw [hbuf] at hbuf'
    cases hbuf'
    exact hload
  have hne {j : ι} {req' : Request} (hji : j ≠ i) (hj : (st.calls j).succeeded = some req') :
      req.id ≠ req'.id := by
    refine hdistinct i j req req' hji.symm ?_ (Phase.request_of_succeeded hj)
    rw [hi]
    rfl
  refine ⟨hload, ⟨fun j req' hj => ?_, fun id hid => ?_⟩, fun j => ?_, fun j k hj => ?_⟩
  · by_cases hji : j = i
    · subst hji
      simp only [State.setCall, update_self, Phase.succeeded, Option.some.injEq] at hj
      subst hj
      exact req.lookup_apply vault
    · simp only [State.setCall, update_of_ne hji] at hj
      rw [Request.lookup_apply_of_ne (hne hji hj)]
      exact h.effects.done j req' hj
  · have hreq : req.id ≠ id := by
      refine hid i req ?_
      simp only [State.setCall, update_self]
      rfl
    rw [Request.lookup_apply_of_ne hreq]
    refine h.effects.others id fun j req' hj => ?_
    by_cases hji : j = i
    · subst hji
      rw [hi] at hj
      cases hj
    · refine hid j req' ?_
      simp only [State.setCall, update_of_ne hji]
      exact hj
  · refine .of_not_holds ?_
    by_cases hji : j = i
    · subst hji
      simp only [State.setCall, update_self]
      rfl
    · simp only [State.setCall, update_of_ne hji]
      exact honly j hji
  · by_cases hji : j = i
    · subst hji
      simp only [State.setCall, update_self] at hj
      cases hj
    · simp only [State.setCall, update_of_ne hji, honly j hji] at hj
      cases hj

/-- A failed access ends an update and leaves the vault. -/
theorem Kept.fail (h : Kept L before vault st) {e : SecretsError}
    (hsucceeded : (st.calls i).succeeded = none) (htmp : tmp = st.tmp ∨ (st.calls i).holds = true) :
    Kept L before vault ({ st with tmp := tmp }.setCall i (.returned req (.error e))) := by
  refine h.move hsucceeded.symm trivial fun j hji hj => ⟨?_, rfl⟩
  rcases htmp with htmp | hi
  · exact htmp
  · rw [h.only hi j hji] at hj
    cases hj

theorem Kept.load (h : Kept L before vault st) (hserial : ∀ j, (st.calls j).holds = false)
    (hi : st.calls i = .started req) (fault : Option String) :
    Kept L before vault (st.load L i req fault) := by
  unfold State.load
  cases fault with
  | some message => exact h.fail (by rw [hi]; rfl) (.inl rfl)
  | none =>
    rw [h.loads]
    refine h.move (by rw [hi]; rfl) rfl fun j _ hj => ?_
    rw [hserial j] at hj
    cases hj

theorem Kept.write (hL : L.Lawful) (h : Kept L before vault st) {next : Entries}
    (hi : st.calls i = .loaded req next) (nonce : Nonce) (fault : Option (String × Option ℕ)) :
    Kept L before vault (st.write L i req next nonce fault) := by
  have hholds : (st.calls i).holds = true := by rw [hi]; rfl
  have hnext : next = req.apply vault := by
    have hready := h.ready i
    rw [hi] at hready
    exact hready
  unfold State.write
  cases himage : image L nonce next with
  | error e => exact h.fail (by rw [hi]; rfl) (.inl rfl)
  | ok buf =>
    cases fault with
    | some fault =>
      obtain ⟨message, n | n⟩ := fault
      · exact h.fail (by rw [hi]; rfl) (.inl rfl)
      · exact h.fail (by rw [hi]; rfl) (.inr hholds)
    | none =>
      refine h.move (by rw [hi]; rfl) ⟨buf, rfl, hnext ▸ load_image hL himage⟩ fun j hji hj => ?_
      rw [h.only hholds j hji] at hj
      cases hj

theorem Kept.rename (h : Kept L before vault st) (hdistinct : Distinct st)
    (hi : st.calls i = .written req) (fault : Option String) :
    ∃ vault', Kept L before vault' (st.rename i req fault) := by
  unfold State.rename
  cases fault with
  | some message => exact ⟨vault, h.fail (by rw [hi]; rfl) (.inl rfl)⟩
  | none =>
    cases htmp : st.tmp with
    | none => exact ⟨vault, h.fail (by rw [hi]; rfl) (.inl rfl)⟩
    | some buf => exact ⟨_, h.commit hdistinct hi htmp⟩

variable {e : Event ι}

/-- A step moves one update on, with the same request. -/
theorem step_calls (h : step L st e = some st') :
    ∃ i ph, st'.calls = update st.calls i ph ∧
      ∀ req, (st.calls i).request = some req → ph.request = some req := by
  cases e with
  | call i req =>
    simp only [step] at h
    split at h
    · next hi =>
      obtain rfl := Option.some.inj h
      exact ⟨i, _, rfl, by rw [hi]; nofun⟩
    · cases h
  | load i fault =>
    simp only [step] at h
    split at h
    · next req hi =>
      obtain rfl := Option.some.inj h
      unfold State.load
      split
      · exact ⟨i, _, rfl, by rw [hi]; exact fun _ hr => hr⟩
      · split <;> exact ⟨i, _, rfl, by rw [hi]; exact fun _ hr => hr⟩
    · cases h
  | write i nonce fault =>
    simp only [step] at h
    split at h
    · next req vault hi =>
      obtain rfl := Option.some.inj h
      unfold State.write
      split <;> exact ⟨i, _, rfl, by rw [hi]; exact fun _ hr => hr⟩
    · cases h
  | rename i fault =>
    simp only [step] at h
    split at h
    · next req hi =>
      obtain rfl := Option.some.inj h
      unfold State.rename
      split
      · exact ⟨i, _, rfl, by rw [hi]; exact fun _ hr => hr⟩
      · split <;> exact ⟨i, _, rfl, by rw [hi]; exact fun _ hr => hr⟩
    · cases h

theorem request_step (hstep : step L st e = some st') {j : ι}
    (hj : (st.calls j).request = some req) : (st'.calls j).request = some req := by
  obtain ⟨i, ph, hcalls, hrequest⟩ := step_calls hstep
  rw [hcalls]
  by_cases hji : j = i
  · subst hji
    rw [update_self]
    exact hrequest req hj
  · rw [update_of_ne hji]
    exact hj

theorem kept_step (hL : L.Lawful) (h : Distinct st → ∃ vault, Kept L before vault st)
    (hserial : Serial st e) (hstep : step L st e = some st') (hdistinct : Distinct st') :
    ∃ vault, Kept L before vault st' := by
  have hbefore : Distinct st := fun j k req req' hjk hj hk =>
    hdistinct j k req req' hjk (request_step hstep hj) (request_step hstep hk)
  obtain ⟨vault, hkept⟩ := h hbefore
  cases e with
  | call i req =>
    simp only [step] at hstep
    split at hstep
    · next hi =>
      obtain rfl := Option.some.inj hstep
      exact ⟨vault, hkept.move (by rw [hi]; rfl) trivial fun _ _ _ => ⟨rfl, rfl⟩⟩
    · cases hstep
  | load i fault =>
    simp only [step] at hstep
    split at hstep
    · next req hi =>
      obtain rfl := Option.some.inj hstep
      exact ⟨vault, hkept.load hserial hi fault⟩
    · cases hstep
  | write i nonce fault =>
    simp only [step] at hstep
    split at hstep
    · next req next hi =>
      obtain rfl := Option.some.inj hstep
      exact ⟨vault, hkept.write hL hi nonce fault⟩
    · cases hstep
  | rename i fault =>
    simp only [step] at hstep
    split at hstep
    · next req hi =>
      obtain rfl := Option.some.inj hstep
      exact hkept.rename hbefore hi fault
    · cases hstep

end Steps

/-- In every run in which no update loads while another is between its load and its rename, and
in which the ids are distinct, the vault has the effect of every update that has succeeded, and
everything else is as it was. -/
theorem updates_kept [DecidableEq ι] (L : Library) (hL : L.Lawful) (before : Entries)
    (buf : List UInt8) (hbuf : load L buf = .ok before) (es : List (Event ι)) (st : State ι)
    (hserial : Meets (step L) Serial (State.initial buf) es)
    (hrun : run (step L) (State.initial buf) es = some st) (hdistinct : Distinct st) :
    ∃ vault, load L st.path = .ok vault ∧ Effects before vault st := by
  have hinit : Distinct (State.initial buf : State ι) →
      ∃ vault, Kept L before vault (State.initial buf : State ι) :=
    fun _ => ⟨before, .initial hbuf⟩
  obtain ⟨vault, h⟩ := run_invariant (fun _ _ _ h hok hstep => kept_step hL h hok hstep) hinit
    hserial hrun hdistinct
  exact ⟨vault, h.loads, h.effects⟩

section Sample
open Codec

/-- A word for each character, none of them zero. -/
def words (s : String) : List ℕ := s.toList.map fun c => c.toNat + 1

def ofWords (ws : List ℕ) : String := String.ofList (ws.map fun n => Char.ofNat (n - 1))

theorem ofWords_words (s : String) : ofWords (words s) = s := by
  simp [ofWords, words, Function.comp_def]

def entryWords (entry : Sigma fun _ : String => String) : List (List ℕ) :=
  [words entry.1, words entry.2]

def readEntries : List (List ℕ) → List (Sigma fun _ : String => String)
  | key :: value :: rest => ⟨ofWords key, ofWords value⟩ :: readEntries rest
  | _ => []

theorem readEntries_entryWords (entries : List (Sigma fun _ : String => String)) :
    readEntries (entries.flatMap entryWords) = entries := by
  induction entries with
  | nil => rfl
  | cons entry entries ih => simp [entryWords, readEntries, ofWords_words, ih]

theorem map_chunks_words {ws : List ℕ} (h : ∀ n ∈ ws, n < 256 ^ 5) :
    (chunks 5 (ws.flatMap (beBytes 5))).map ofBeBytes = ws := by
  induction ws with
  | nil => rfl
  | cons n ws ih =>
    rw [List.forall_mem_cons] at h
    rw [List.flatMap_cons, chunks_append (by decide) (beBytes_length 5 n), List.map_cons,
      ofBeBytes_beBytes 5 n h.1, ih h.2]

/-- A stand-in for the libraries: the entries in the clear, their texts apart by a zero, and
sixteen zeros at the end. -/
def plainLibrary : Library where
  toVec m := ([0].intercalate ([] :: m.entries.flatMap entryWords)).flatMap (beBytes 5)
  fromSlice bytes :=
    let entries := readEntries (((chunks 5 bytes).map ofBeBytes).splitOn 0).tail
    if h : entries.keys.Nodup then some ⟨entries, h⟩ else none
  encrypt _ plain := some (plain ++ List.replicate 16 0)
  decrypt _ cipher := some (cipher.take (cipher.length - 16))

theorem plainLibrary_lawful : plainLibrary.Lawful where
  fromSlice_toVec m := by
    have hwords : ∀ l ∈ [] :: m.entries.flatMap entryWords, ∀ n ∈ l, 0 < n ∧ n < 256 ^ 5 := by
      simp only [List.mem_cons, List.mem_flatMap]
      rintro l (rfl | ⟨entry, -, hl⟩) n hn
      · cases hn
      · obtain ⟨c, rfl⟩ : ∃ c : Char, n = c.toNat + 1 := by
          simp only [entryWords, List.mem_cons, List.not_mem_nil, or_false] at hl
          rcases hl with rfl | rfl <;>
            exact (List.mem_map.1 hn).imp fun c h => h.2.symm
        have hlt : c.toNat < 2 ^ 32 := c.val.toNat_lt
        omega
    have hbound : ∀ n ∈ [0].intercalate ([] :: m.entries.flatMap entryWords), n < 256 ^ 5 := by
      intro n hn
      obtain hn | ⟨l, hl, hn⟩ := mem_intercalate hn
      · rw [List.mem_singleton.1 hn]
        decide
      · exact (hwords l hl n hn).2
    have hsplit := List.splitOn_intercalate 0 (fun l hl hn => Nat.lt_irrefl 0 (hwords l hl 0 hn).1)
      (List.cons_ne_nil _ _)
    simp only [plainLibrary, map_chunks_words hbound, hsplit, List.tail_cons, readEntries_entryWords]
    exact dif_pos m.nodupKeys
  encrypt_length h := by
    obtain rfl := Option.some.inj h
    simp
  decrypt_encrypt h := by
    obtain rfl := Option.some.inj h
    simp [plainLibrary]

def zeroNonce : Nonce := ⟨List.replicate 12 0, rfl⟩

/-- The file of a vault without entries. -/
def emptyVault : List UInt8 := fileMagic ++ (zeroNonce.bytes ++ List.replicate 16 0)

def putA : Request := .put "sec_a" "alpha"

def putB : Request := .put "sec_b" "beta"

def persist (i : Bool) : List (Event Bool) := [.write i zeroNonce none, .rename i none]

/-- One update after the other. -/
def serialRun : List (Event Bool) :=
  [.call false putA, .call true putB, .load false none] ++ persist false ++ [.load true none] ++
    persist true

/-- Both updates load the empty vault. -/
def racingRun : List (Event Bool) :=
  [.call false putA, .call true putB, .load false none, .load true none] ++ persist false ++
    persist true

theorem distinct_of_succeeded {st : State Bool} (ha : (st.calls false).succeeded = some putA)
    (hb : (st.calls true).succeeded = some putB) : Distinct st := by
  have ha' := Phase.request_of_succeeded ha
  have hb' := Phase.request_of_succeeded hb
  intro i j req req' hij hi hj
  cases i with
  | false =>
    cases j with
    | false => exact absurd rfl hij
    | true =>
      cases ha'.symm.trans hi
      cases hb'.symm.trans hj
      decide
  | true =>
    cases j with
    | true => exact absurd rfl hij
    | false =>
      cases hb'.symm.trans hi
      cases ha'.symm.trans hj
      decide

theorem serialRun_kept :
    ∃ st vault, run (step plainLibrary) (State.initial emptyVault) serialRun = some st ∧
      load plainLibrary st.path = .ok vault ∧ vault.lookup "sec_a" = some "alpha" ∧
      vault.lookup "sec_b" = some "beta" ∧ vault.lookup "sec_c" = none := by
  have hserial : Meets (step plainLibrary) Serial (State.initial emptyVault) serialRun := by
    decide +kernel
  have hend : (run (step plainLibrary) (State.initial emptyVault) serialRun).any (fun st =>
      (st.calls false).succeeded == some putA && (st.calls true).succeeded == some putB) = true := by
    decide +kernel
  obtain ⟨st, hrun, hst⟩ := (Option.any_eq_true _ _).1 hend
  rw [Bool.and_eq_true, beq_iff_eq, beq_iff_eq] at hst
  obtain ⟨ha, hb⟩ := hst
  have himage : image plainLibrary zeroNonce ∅ = .ok emptyVault := rfl
  obtain ⟨vault, hload, heffects⟩ := updates_kept plainLibrary plainLibrary_lawful ∅ emptyVault
    (load_image plainLibrary_lawful himage) serialRun st hserial hrun (distinct_of_succeeded ha hb)
  refine ⟨st, vault, hrun, hload, heffects.done false putA ha, heffects.done true putB hb, ?_⟩
  refine heffects.others "sec_c" fun i req hi => ?_
  cases i with
  | false =>
    cases ha.symm.trans hi
    decide
  | true =>
    cases hb.symm.trans hi
    decide

/-- Both updates succeed, and the first one is lost. -/
theorem racingRun_loses :
    ∃ st vault, run (step plainLibrary) (State.initial emptyVault) racingRun = some st ∧
      (st.calls false).succeeded = some putA ∧ (st.calls true).succeeded = some putB ∧
      load plainLibrary st.path = .ok vault ∧ vault.lookup "sec_a" = none := by
  have hend : (run (step plainLibrary) (State.initial emptyVault) racingRun).any (fun st =>
      (st.calls false).succeeded == some putA && (st.calls true).succeeded == some putB &&
      ((load plainLibrary st.path).toOption.any fun vault => vault.lookup "sec_a" == none)) = true := by
    decide +kernel
  obtain ⟨st, hrun, hst⟩ := (Option.any_eq_true _ _).1 hend
  simp only [Bool.and_eq_true, beq_iff_eq] at hst
  obtain ⟨⟨ha, hb⟩, hvault⟩ := hst
  obtain ⟨vault, hload, hlookup⟩ := (Option.any_eq_true _ _).1 hvault
  refine ⟨st, vault, hrun, ha, hb, ?_, eq_of_beq hlookup⟩
  cases hc : load plainLibrary st.path with
  | ok vault' =>
    rw [hc] at hload
    exact congrArg Except.ok (Option.some.inj hload)
  | error e =>
    rw [hc] at hload
    cases hload

end Sample

end EasyConnection.Secrets
