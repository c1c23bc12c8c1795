import EasyConnection.Core.Rows
import EasyConnection.Desktop.Form

/-! # Saving a form in which nothing was changed

A profile goes to the form as texts and comes back as texts. The transport keeps its name on the
way except for HTTP Upgrade, which the form does not recognise, and the fields that the form does
not show for a transport come back empty.
-/
namespace EasyConnection.Desktop
open Async Codec Config EasyConnection.Core

section Texts

theorem oneLine_eq {s : String} (h : ∀ c ∈ s.toList, c ≠ '\n' ∧ c ≠ '\r') : oneLine s = s := by
  have hall : s.toList.filter (fun c => c ≠ '\n' && c ≠ '\r') = s.toList := by
    rw [List.filter_eq_self]
    intro c hc
    simpa using h c hc
  rw [oneLine, hall, String.ofList_toList]

theorem not_lineBreak {c : Char} (h : isControl c = false) : c ≠ '\n' ∧ c ≠ '\r' := by
  constructor
  · rintro rfl
    exact absurd h (by decide)
  · rintro rfl
    exact absurd h (by decide)

theorem not_lineBreak_of_not_mem {c : Char} (h : c ∉ ['\r', '\n', '\x00']) : c ≠ '\n' ∧ c ≠ '\r' := by
  simp only [List.mem_cons, not_or] at h
  exact ⟨h.2.1, h.1⟩

@[simp] theorem textOr_empty (value : Option String) : textOr value "" = value.getD "" := by
  cases value with
  | none => rfl
  | some s =>
    by_cases hs : s = ""
    · simp [textOr, hs]
    · simp [textOr, hs]

theorem unlessBlank_getD_iff {value : Option String} :
    unlessBlank (value.getD "") = value ↔ ∀ s, value = some s → isBlank s = false := by
  cases value with
  | none => exact ⟨fun _ _ h => (nomatch h), fun _ => rfl⟩
  | some s => cases hs : isBlank s <;> simp [unlessBlank, hs]

end Texts

variable {alpn : List String}

section Lists

/-- A list of protocols comes back from the form exactly if no name has a comma. -/
theorem alpn_kept_iff
    (h : ∀ a ∈ alpn, a ≠ "" ∧ ∀ c ∈ a.toList, isControl c = false ∧ isWhitespace c = false) :
    listItems [',', ' '] (joined alpn) = alpn ↔ ∀ a ∈ alpn, ',' ∉ a.toList := by
  have hjoined : listItems [',', ' '] (joined alpn) =
      (alpn.flatMap fun a => parts [',', ' '] a.toList).map String.ofList := by
    have hsep : ", ".toList = [',', ' '] := rfl
    rw [listItems, joined, String.toList_ofList, hsep, parts_intercalate (by decide) (by decide),
      List.flatMap_map]
  rw [hjoined]
  constructor
  · intro heq a ha hcomma
    rw [← heq] at ha
    obtain ⟨part, hpart, rfl⟩ := List.mem_map.1 ha
    obtain ⟨b, -, hpart⟩ := List.mem_flatMap.1 hpart
    rw [String.toList_ofList] at hcomma
    exact not_mem_of_mem_parts hpart ',' hcomma (by decide)
  · intro hcomma
    have hparts : ∀ a ∈ alpn, parts [',', ' '] a.toList = [a.toList] := by
      intro a ha
      refine parts_item (fun hnil => (h a ha).1 (String.toList_eq_nil_iff.1 hnil)) fun c hc => ?_
      refine ⟨fun hsep => ?_, ((h a ha).2 c hc).2⟩
      obtain rfl | rfl : c = ',' ∨ c = ' ' := by simpa using hsep
      · exact hcomma a ha hc
      · exact absurd ((h a ha).2 _ hc).2 (by decide)
    rw [List.flatMap_congr hparts]
    rw [← List.map_eq_flatMap, List.map_map]
    simp [Function.comp_def]

/-- Line breaks are in none of the names, and the form adds none. -/
theorem oneLine_joined
    (h : ∀ a ∈ alpn, a ≠ "" ∧ ∀ c ∈ a.toList, isControl c = false ∧ isWhitespace c = false) :
    oneLine (joined alpn) = joined alpn := by
  apply oneLine_eq
  intro c hc
  rw [joined, String.toList_ofList] at hc
  obtain hsep | ⟨item, hitem, hc⟩ := mem_intercalate hc
  · obtain rfl | rfl : c = ',' ∨ c = ' ' := by simpa using hsep
    · decide
    · decide
  · obtain ⟨a, ha, rfl⟩ := List.mem_map.1 hitem
    exact not_lineBreak ((h a ha).2 c hc).1

end Lists

section Fields
variable (f : Form)

/-- None of the entries is for one of the fields. -/
def Lacks (controls : List Control) (entries : List (Control × String)) : Prop :=
  ∀ entry ∈ entries, entry.1 ∉ controls

variable {control : Control}

section Lacks
variable {controls : List Control}

theorem lacks_nil : Lacks controls [] := fun _ h => nomatch h

variable {l : List (Control × String)}

theorem Lacks.cons {text : String} (h : Lacks controls l) (hcontrol : control ∉ controls) :
    Lacks controls ((control, text) :: l) :=
  List.forall_mem_cons.2 ⟨hcontrol, h⟩

theorem Lacks.append {l' : List (Control × String)} (h : Lacks controls l)
    (h' : Lacks controls l') : Lacks controls (l ++ l') :=
  List.forall_mem_append.2 ⟨h, h'⟩

theorem lacks_ite {c : Prop} [Decidable c] (h : Lacks controls l) :
    Lacks controls (if c then l else []) := by
  split_ifs
  · exact h
  · exact lacks_nil

theorem lacks_checkbox (h : control ∉ controls) (checked : Bool) :
    Lacks controls (checkbox control checked) :=
  lacks_ite (lacks_nil.cons h)

theorem Lacks.lookup (h : Lacks controls l) (hcontrol : control ∈ controls) :
    l.lookup control = none := by
  rw [List.lookup_eq_none_iff]
  intro entry hentry
  have hne : control ≠ entry.1 := by
    intro heq
    exact h entry hentry (heq ▸ hcontrol)
  simpa using hne

end Lacks

/-- The fields that go with the transport. -/
def transportControls : List Control := [.tlsSni, .tlsAlpn, .tlsPath, .tlsHost]

theorem basicFields_lacks : Lacks transportControls f.basicFields := by
  refine Lacks.append ((lacks_nil.cons (by decide)).cons (by decide)) ?_
  cases f.protocol with
  | ssh =>
    refine Lacks.append ?_ (lacks_checkbox (by decide) _)
    exact (lacks_nil.cons (by decide)).cons (by decide)
  | shadowsocks => exact (lacks_nil.cons (by decide)).cons (by decide)
  | vless => exact ((lacks_nil.cons (by decide)).cons (by decide)).cons (by decide)

theorem transportFields_lacks : Lacks [.password] f.transportFields :=
  (lacks_ite ((lacks_nil.cons (by decide)).cons (by decide))).append
    (lacks_ite ((lacks_nil.cons (by decide)).cons (by decide)))

theorem advancedFields_lacks : Lacks (.password :: transportControls) f.advancedFields := by
  have hdns : Lacks (.password :: transportControls)
      (if f.dnsMode ≠ .system then [(.dnsServers, oneLine f.defaults.dnsServers)] else []) :=
    lacks_ite (lacks_nil.cons (by decide))
  have hudpgw : Lacks (.password :: transportControls) (if f.protocol = .ssh ∧ f.udpgw then
      (.udpgwHost, oneLine f.defaults.udpgwHost) :: checkbox .udpgwDns f.defaults.udpgwDns
      else []) :=
    lacks_ite ((lacks_checkbox (by decide) _).cons (by decide))
  refine Lacks.append (Lacks.append (Lacks.append (Lacks.append (Lacks.append ?_ ?_) ?_) ?_) hdns)
    hudpgw
  · exact lacks_checkbox (by decide) _
  · exact (lacks_nil.cons (by decide)).cons (by decide)
  · exact lacks_checkbox (by decide) _
  · exact lacks_checkbox (by decide) _

theorem data_lookup (h : control ∈ transportControls) :
    f.data.lookup control = f.transportFields.lookup control := by
  have hbasic := (basicFields_lacks f).lookup h
  have hadvanced := (lacks_ite (c := f.advanced = true) (advancedFields_lacks f)).lookup
    (List.mem_cons_of_mem _ h)
  rw [Form.data, List.lookup_append, List.lookup_append, hbasic, hadvanced, Option.none_or,
    Option.or_none]

/-- The field for a new password is empty, or not there. -/
theorem get_password : f.get .password "" = "" := by
  have htransport := (transportFields_lacks f).lookup List.mem_cons_self
  have hadvanced := (lacks_ite (c := f.advanced = true) (advancedFields_lacks f)).lookup
    List.mem_cons_self
  have hbasic : (f.basicFields.lookup .password).getD "" = "" := by
    unfold Form.basicFields
    cases f.protocol <;> rfl
  rw [Form.get, textOr_empty, Form.data, List.lookup_append, List.lookup_append, htransport,
    hadvanced, Option.or_none, Option.or_none, hbasic]

theorem submit_newPassword (id : String) : (f.submit id).newPassword = none := by
  have hpassword : (f.submit id).password = none := if_pos (get_password f)
  rw [UpdateProfile.newPassword, hpassword]
  rfl

theorem get_tlsSni :
    f.get .tlsSni "" = if needsTlsFields f.transport then oneLine f.defaults.tlsSni else "" := by
  rw [Form.get, data_lookup f (by decide), textOr_empty, Form.transportFields]
  cases needsTlsFields f.transport <;> cases needsPath f.transport <;> rfl

theorem get_tlsAlpn :
    f.get .tlsAlpn "" = if needsTlsFields f.transport then oneLine f.defaults.tlsAlpn else "" := by
  rw [Form.get, data_lookup f (by decide), textOr_empty, Form.transportFields]
  cases needsTlsFields f.transport <;> cases needsPath f.transport <;> rfl

theorem get_tlsHost :
    f.get .tlsHost "" = if needsPath f.transport then oneLine f.defaults.tlsHost else "" := by
  rw [Form.get, data_lookup f (by decide), textOr_empty, Form.transportFields]
  cases needsTlsFields f.transport <;> cases needsPath f.transport <;> rfl

theorem get_tlsPath :
    f.get .tlsPath "/" =
      if needsPath f.transport then textOr (some (oneLine f.defaults.tlsPath)) "/" else "/" := by
  rw [Form.get, data_lookup f (by decide), Form.transportFields]
  cases needsTlsFields f.transport <;> cases needsPath f.transport <;> rfl

end Fields

section Transport

/-- The transport that the form shows for a profile. -/
def shown : Transport → TransportKind
  | .direct => .direct
  | .tls => .tls
  | .webSocket => .websocket
  | .wss => .wss
  | .httpUpgrade => .direct

theorem load_transport (cfg : ConnectionConfig) :
    (load (toDto cfg)).transport = shown cfg.transport := by
  simp only [load, toDto]
  cases cfg.transport <;> decide

theorem parseTransport_shown_iff {t t' : Transport} (h : parseTransport (shown t).text = .ok t') :
    t' = t ↔ t ≠ .httpUpgrade := by
  cases t <;> obtain rfl := Except.ok.inj h <;> decide

theorem needsTlsFields_shown (t : Transport) :
    needsTlsFields (shown t) = true ↔ t = .tls ∨ t = .wss := by
  cases t <;> decide

theorem needsPath_shown (t : Transport) :
    needsPath (shown t) = true ↔ t = .webSocket ∨ t = .wss := by
  cases t <;> decide

end Transport

/-- The settings of the transport are as they were. A path that is not given is `/`. -/
structure TransportKept (cfg cfg' : ConnectionConfig) : Prop where
  transport : cfg'.transport = cfg.transport
  sni : cfg'.tls.sni = cfg.tls.sni
  alpn : cfg'.tls.alpn = cfg.tls.alpn
  verify : cfg'.tls.verify = cfg.tls.verify
  path : cfg'.tls.path.getD "/" = cfg.tls.path.getD "/"
  host : cfg'.tls.host = cfg.tls.host

/-- A text that is given is not blank. -/
def NotBlank (value : Option String) : Prop := ∀ s, value = some s → isBlank s = false

/-- The form has a place for all settings of the transport. -/
structure Representable (cfg : ConnectionConfig) : Prop where
  transport : cfg.transport ≠ .httpUpgrade
  sni : cfg.tls.sni = none ∨ (cfg.transport = .tls ∨ cfg.transport = .wss) ∧ NotBlank cfg.tls.sni
  alpn : cfg.tls.alpn = [] ∨ (cfg.transport = .tls ∨ cfg.transport = .wss) ∧
    ∀ a ∈ cfg.tls.alpn, ',' ∉ a.toList
  path : cfg.tls.path.getD "/" = "/" ∨ cfg.transport = .webSocket ∨ cfg.transport = .wss
  host : cfg.tls.host = none ∨ (cfg.transport = .webSocket ∨ cfg.transport = .wss) ∧
    NotBlank cfg.tls.host

section Submitted
variable {cfg cfg' : ConnectionConfig}

/-- What the arguments of the transport do to a profile. -/
structure TlsApplied (args : TlsArgs) (cfg cfg' : ConnectionConfig) : Prop where
  transport : args.transport.elim (.ok cfg.transport) parseTransport = .ok cfg'.transport
  sni : cfg'.tls.sni = (args.sni.map unlessBlank).getD cfg.tls.sni
  alpn : cfg'.tls.alpn = (args.alpn.map (listItems [',', ' '])).getD cfg.tls.alpn
  verify : cfg'.tls.verify = args.verify.getD cfg.tls.verify
  path : cfg'.tls.path = (args.path.map unlessBlank).getD cfg.tls.path
  host : cfg'.tls.host = (args.host.map unlessBlank).getD cfg.tls.host

theorem applyTransportTls_applied {args : TlsArgs} (h : applyTransportTls cfg args = .ok cfg') :
    TlsApplied args cfg cfg' := by
  obtain ⟨transport, htransport, h⟩ := except_bind_eq_ok.1 h
  obtain ⟨fingerprint, -, h⟩ := except_bind_eq_ok.1 h
  obtain rfl := Except.ok.inj h
  exact ⟨htransport, rfl, rfl, rfl, rfl, rfl⟩

theorem edited_tls {args : UpdateProfile} (h : edited cfg args = .ok cfg') :
    ∃ cfg₁ cfg₂, TlsApplied args.tls cfg₁ cfg₂ ∧ cfg'.transport = cfg₂.transport ∧
      cfg'.tls = cfg₂.tls := by
  obtain ⟨cfg₁, -, h⟩ := except_bind_eq_ok.1 h
  obtain ⟨cfg₂, htls, h⟩ := except_bind_eq_ok.1 h
  obtain rfl := Except.ok.inj h
  exact ⟨_, cfg₂, applyTransportTls_applied htls, rfl, rfl⟩

/-- What an update with all arguments of the transport stores. -/
structure Stores (f : Form) (cfg' : ConnectionConfig) : Prop where
  transport : parseTransport f.transport.text = .ok cfg'.transport
  sni : cfg'.tls.sni = unlessBlank (f.get .tlsSni "")
  alpn : cfg'.tls.alpn = listItems [',', ' '] (f.get .tlsAlpn "")
  verify : cfg'.tls.verify = f.tlsVerify
  path : cfg'.tls.path = unlessBlank (f.get .tlsPath "/")
  host : cfg'.tls.host = unlessBlank (f.get .tlsHost "")

theorem edited_stores {f : Form} {id : String} (h : edited cfg (f.submit id) = .ok cfg') :
    Stores f cfg' := by
  obtain ⟨cfg₁, cfg₂, happlied, htransport, htls⟩ := edited_tls h
  obtain ⟨hparsed, hsni, halpn, hverify, hpath, hhost⟩ := happlied
  simp only [Form.submit, Option.elim_some, Option.map_some, Option.getD_some]
    at hparsed hsni halpn hverify hpath hhost
  rw [← htransport] at hparsed
  rw [← htls] at hsni halpn hverify hpath hhost
  exact ⟨hparsed, hsni, halpn, hverify, hpath, hhost⟩

theorem Stores.saved {f : Form} (h : Stores f cfg') (t : Time) : Stores f (saved cfg' t) :=
  ⟨h.transport, h.sni, h.alpn, h.verify, h.path, h.host⟩

variable {isShown : Bool}

/-- A text that may be left blank comes back if its field is shown and it is not blank. -/
theorem unlessBlank_field_iff {value : Option String}
    (hlines : ∀ s, value = some s → oneLine s = s) :
    unlessBlank (if isShown then oneLine (textOr value "") else "") = value ↔
      value = none ∨ isShown = true ∧ NotBlank value := by
  cases isShown with
  | false =>
    have hblank : unlessBlank "" = none := rfl
    simp [hblank, eq_comm]
  | true =>
    have hline : oneLine (textOr value "") = value.getD "" := by
      rw [textOr_empty]
      cases value with
      | none => rfl
      | some s => exact hlines s rfl
    rw [if_pos rfl, hline, unlessBlank_getD_iff]
    constructor
    · exact fun h => .inr ⟨rfl, h⟩
    · rintro (rfl | ⟨-, h⟩)
      · exact fun _ h => nomatch h
      · exact h

/-- The path comes back, up to the default, if its field is shown or it is the default. -/
theorem path_field_iff {value : Option String}
    (hpath : ∀ s, value = some s → s.toList.head? = some '/' ∧ oneLine s = s) :
    (unlessBlank (if isShown then textOr (some (oneLine (textOr value "/"))) "/" else "/")).getD "/" =
      value.getD "/" ↔ value.getD "/" = "/" ∨ isShown = true := by
  have hroot : unlessBlank "/" = some "/" := by decide
  cases isShown with
  | false => simp [hroot, eq_comm]
  | true =>
    refine iff_of_true ?_ (.inr rfl)
    cases value with
    | none => decide
    | some s =>
      obtain ⟨hhead, hline⟩ := hpath s rfl
      have hne : s ≠ "" := by
        rintro rfl
        cases hhead
      have hblank : isBlank s = false := by
        obtain ⟨rest, hrest⟩ : ∃ rest, s.toList = '/' :: rest :=
          List.head?_eq_some_iff.1 hhead
        rw [isBlank, hrest, List.all_cons]
        exact Bool.and_eq_false_iff.2 (.inl (by decide))
      have htext : textOr (some s) "/" = s := if_neg hne
      rw [if_pos rfl, htext, hline, htext, unlessBlank, hblank]
      rfl

/-- The list of protocols comes back if its field is shown and no name has a comma. -/
theorem alpn_field_iff
    (h : ∀ a ∈ alpn, a ≠ "" ∧ ∀ c ∈ a.toList, isControl c = false ∧ isWhitespace c = false) :
    listItems [',', ' '] (if isShown then oneLine (joined alpn) else "") = alpn ↔
      alpn = [] ∨ isShown = true ∧ ∀ a ∈ alpn, ',' ∉ a.toList := by
  cases isShown with
  | false =>
    have hnone : listItems [',', ' '] "" = [] := by decide
    simp [hnone, eq_comm]
  | true =>
    rw [if_pos rfl, oneLine_joined h, alpn_kept_iff h]
    constructor
    · exact fun hcomma => .inr ⟨rfl, hcomma⟩
    · rintro (rfl | ⟨-, hcomma⟩)
      · exact fun _ ha => nomatch ha
      · exact hcomma

theorem stores_kept_iff (htls : TlsAccepted cfg.tls) (h : Stores (load (toDto cfg)) cfg') :
    TransportKept cfg cfg' ↔ Representable cfg := by
  have hshown := load_transport cfg
  have htransport : cfg'.transport = cfg.transport ↔ cfg.transport ≠ .httpUpgrade := by
    have hparsed := h.transport
    rw [hshown] at hparsed
    exact parseTransport_shown_iff hparsed
  have hsni : cfg'.tls.sni = cfg.tls.sni ↔ cfg.tls.sni = none ∨
      (cfg.transport = .tls ∨ cfg.transport = .wss) ∧ NotBlank cfg.tls.sni := by
    rw [h.sni, get_tlsSni, hshown, ← needsTlsFields_shown]
    exact unlessBlank_field_iff fun s hs =>
      oneLine_eq fun c hc => not_lineBreak (htls.sni s hs c hc)
  have halpn : cfg'.tls.alpn = cfg.tls.alpn ↔ cfg.tls.alpn = [] ∨
      (cfg.transport = .tls ∨ cfg.transport = .wss) ∧ ∀ a ∈ cfg.tls.alpn, ',' ∉ a.toList := by
    rw [h.alpn, get_tlsAlpn, hshown, ← needsTlsFields_shown]
    exact alpn_field_iff htls.alpn
  have hpath : cfg'.tls.path.getD "/" = cfg.tls.path.getD "/" ↔ cfg.tls.path.getD "/" = "/" ∨
      cfg.transport = .webSocket ∨ cfg.transport = .wss := by
    rw [h.path, get_tlsPath, hshown, ← needsPath_shown]
    exact path_field_iff fun s hs => ⟨(htls.path s hs).1, oneLine_eq fun c hc =>
      not_lineBreak_of_not_mem ((htls.path s hs).2 c hc)⟩
  have hhost : cfg'.tls.host = cfg.tls.host ↔ cfg.tls.host = none ∨
      (cfg.transport = .webSocket ∨ cfg.transport = .wss) ∧ NotBlank cfg.tls.host := by
    rw [h.host, get_tlsHost, hshown, ← needsPath_shown]
    exact unlessBlank_field_iff fun s hs =>
      oneLine_eq fun c hc => not_lineBreak_of_not_mem (htls.host s hs c hc)
  constructor
  · intro hkept
    exact ⟨htransport.1 hkept.transport, hsni.1 hkept.sni, halpn.1 hkept.alpn,
      hpath.1 hkept.path, hhost.1 hkept.host⟩
  · intro hrep
    exact ⟨htransport.2 hrep.transport, hsni.2 hrep.sni, halpn.2 hrep.alpn, h.verify,
      hpath.2 hrep.path, hhost.2 hrep.host⟩

end Submitted

section Update
variable {L : Library} {w : World} {u : Uuid} {cfg : ConnectionConfig}

theorem ofCore_runs [Texts] {α : Type} {x : CoreM α} {post : Except CommandError α → World → Prop}
    (h : Runs (fun r w' => post (r.mapError .core) w') x w) :
    (ofCore x).run.Ensures exec Unused post w :=
  (Prog.ensures_bind x.run _).2 h

theorem ofExcept_ensures [Texts] {α : Type} {r : Except String α} {a : α}
    {post : Except CommandError α → World → Prop} (hr : r = .ok a) (h : post (.ok a) w) :
    (ofExcept r).run.Ensures exec Unused post w := by
  subst hr
  exact h

theorem getProfile_ensures [Texts] {id : String}
    {post : Except CommandError ProfileDto → World → Prop}
    (hid : L.parseUuid id = .ok u) (hrow : w.profiles.lookup u = some cfg)
    (hok : post (.ok (toDto cfg)) w) (herror : ∀ e, post (.error e) w) :
    (getProfile L id).run.Ensures exec Unused post w := by
  refine Prog.ensures_of_then (ofExcept_ensures hid ?_)
  refine Prog.ensures_of_then (ofCore_runs (getProfile_runs (fun cfg' hrow' => ?_) fun e => ?_))
  · obtain rfl := Option.some.inj (hrow.symm.trans hrow')
    exact hok
  · exact herror _

/-- An update without a new password stores the edited profile, or nothing. -/
theorem updateSshProfile_ensures [Texts] {args : UpdateProfile}
    {post : Except CommandError ProfileDto → World → Prop} (hid : L.parseUuid args.id = .ok u)
    (hpassword : args.newPassword = none) (hrow : w.profiles.lookup u = some cfg)
    (hok : ∀ cfg' t, edited cfg args = .ok cfg' →
      post (.ok (toDto (saved cfg' t))) (w.store (saved cfg' t)))
    (herror : ∀ e, post (.error e) w) :
    (updateSshProfile L args).run.Ensures exec Unused post w := by
  rw [updateSshProfile, hpassword]
  refine Prog.ensures_of_then (ofExcept_ensures hid ?_)
  refine Prog.ensures_of_then (ofCore_runs (getProfile_runs (fun cfg' hrow' => ?_) fun e => ?_))
  · obtain rfl := Option.some.inj (hrow.symm.trans hrow')
    refine Prog.ensures_of_then ?_
    cases hedited : edited cfg args with
    | error e => exact herror _
    | ok cfg' =>
      refine Prog.ensures_of_then (ofCore_runs (saveProfile_runs (fun t => ?_) fun e => ?_))
      · exact hok cfg' t hedited
      · exact herror _
  · exact herror _

theorem edited_id {args : UpdateProfile} {cfg' : ConnectionConfig}
    (h : edited cfg args = .ok cfg') : cfg'.id = cfg.id := by
  obtain ⟨cfg₁, hcommon, h⟩ := except_bind_eq_ok.1 h
  obtain ⟨cfg₂, htls, h⟩ := except_bind_eq_ok.1 h
  obtain rfl := Except.ok.inj h
  obtain ⟨transport, -, htls⟩ := except_bind_eq_ok.1 htls
  obtain ⟨fingerprint, -, htls⟩ := except_bind_eq_ok.1 htls
  obtain rfl := Except.ok.inj htls
  obtain ⟨mode, -, hcommon⟩ := except_bind_eq_ok.1 hcommon
  obtain rfl := Except.ok.inj hcommon
  change (moveTo cfg args.host args.port).id = cfg.id
  unfold moveTo
  split_ifs <;> rfl

end Update

/-- A stored profile is opened for editing and the form is sent as it is. A failure leaves the
settings of the transport as they were; a saved form does so exactly if it has a place for all of
them. -/
theorem unchanged_edit_keeps_iff [Texts] (L : Library) (w : World) (id : String) (u : Uuid)
    (cfg : ConnectionConfig) (hid : L.parseUuid id = .ok u) (hrow : w.profiles.lookup u = some cfg)
    (hkey : cfg.id = u) (hvalid : validateConnection cfg = .ok ()) :
    (editUnchanged L id).run.Ensures exec Unused (fun r w' =>
      ∃ cfg', w'.profiles.lookup u = some cfg' ∧
        (r.isOk = false → TransportKept cfg cfg') ∧
        (r.isOk = true → (TransportKept cfg cfg' ↔ Representable cfg))) w := by
  have hunchanged : TransportKept cfg cfg := ⟨rfl, rfl, rfl, rfl, rfl, rfl⟩
  refine Prog.ensures_of_then (getProfile_ensures hid hrow ?_ fun e => ?_)
  · refine updateSshProfile_ensures hid (submit_newPassword _ id) hrow (fun cfg' t hedited => ?_)
      fun e => ?_
    · have hstores := (edited_stores hedited).saved t
      have hlookup : (w.store (saved cfg' t)).profiles.lookup u = some (saved cfg' t) := by
        have hsaved : (saved cfg' t).id = u := (edited_id hedited).trans hkey
        rw [← hsaved]
        exact World.lookup_store _
      exact ⟨saved cfg' t, hlookup, nofun,
        fun _ => stores_kept_iff (validateConnection_tls hvalid) hstores⟩
    · exact ⟨cfg, hrow, fun _ => hunchanged, nofun⟩
  · exact ⟨cfg, hrow, fun _ => hunchanged, nofun⟩

section Sample
open Sample

def sampleProfile (transport : Transport) : ConnectionConfig :=
  { ConnectionConfig.newSsh 7 0 "Home" "192.0.2.1" 443 with
    username := some "alice"
    transport
    tls := { TlsSettings.default with
      sni := some "cdn.example"
      alpn := ["h2", "http/1.1"]
      path := some "/up"
      host := some "cdn.example" } }

theorem sampleProfile_valid (transport : Transport) :
    validateConnection (sampleProfile transport) = .ok () := by
  cases transport <;> decide +kernel

theorem sampleProfile_wss_representable : Representable (sampleProfile .wss) where
  transport := by decide
  sni := .inr ⟨.inr rfl, fun _ h => Option.some.inj h ▸ by decide⟩
  alpn := .inr ⟨.inr rfl, by decide⟩
  path := .inr (.inr rfl)
  host := .inr ⟨.inr rfl, fun _ h => Option.some.inj h ▸ by decide⟩

/-- All settings of a profile over WSS survive. -/
theorem unchanged_edit_keeps_wss :
    (editUnchanged library seven).run.Ensures exec Unused (fun _ w' =>
      ∃ cfg', w'.profiles.lookup 7 = some cfg' ∧ TransportKept (sampleProfile .wss) cfg')
      (World.empty.store (sampleProfile .wss)) := by
  have hedit := unchanged_edit_keeps_iff library (World.empty.store (sampleProfile .wss)) seven 7
    (sampleProfile .wss) rfl (World.lookup_store _) rfl (sampleProfile_valid .wss)
  refine hedit.mono fun r w' h => ?_
  obtain ⟨cfg', hrow, hrefused, hsaved⟩ := h
  refine ⟨cfg', hrow, ?_⟩
  cases r with
  | error e => exact hrefused rfl
  | ok dto => exact (hsaved rfl).2 sampleProfile_wss_representable

/-- A profile over HTTP Upgrade is saved as one over plain TCP, without its TLS settings. -/
theorem http_upgrade_lost :
    ∃ dto w' cfg', (editUnchanged library seven).run.runWith exec Unused
        (List.replicate 4 ⟨1, 0, none, .error Ssh.noZones⟩)
        (World.empty.store (sampleProfile .httpUpgrade)) = some (.ok dto, w') ∧
      validateConnection (sampleProfile .httpUpgrade) = .ok () ∧
      w'.profiles.lookup 7 = some cfg' ∧ cfg'.transport = .direct ∧ cfg'.tls.sni = none ∧
      cfg'.tls.alpn = [] ∧ cfg'.tls.path = some "/" ∧ cfg'.tls.host = none := by
  have hrun : ((editUnchanged library seven).run.runWith exec Unused
      (List.replicate 4 ⟨1, 0, none, .error Ssh.noZones⟩)
      (World.empty.store (sampleProfile .httpUpgrade))).any (fun final => final.1.isOk &&
        (final.2.profiles.lookup 7).any fun cfg => decide (cfg.transport = .direct ∧
          cfg.tls.sni = none ∧ cfg.tls.alpn = [] ∧ cfg.tls.path = some "/" ∧
          cfg.tls.host = none)) = true := by
    decide +kernel
  obtain ⟨⟨r, w'⟩, hrun, hend⟩ := (Option.any_eq_true _ _).1 hrun
  obtain ⟨hok, hrow⟩ := Bool.and_eq_true_iff.1 hend
  obtain ⟨cfg', hrow, hcfg⟩ := (Option.any_eq_true _ _).1 hrow
  cases r with
  | error e => cases hok
  | ok dto =>
    exact ⟨dto, w', cfg', hrun, sampleProfile_valid .httpUpgrade, hrow, of_decide_eq_true hcfg⟩

end Sample

end EasyConnection.Desktop
