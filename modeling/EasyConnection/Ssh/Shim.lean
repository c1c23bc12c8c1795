import EasyConnection.Async.Gather
import EasyConnection.Async.Segments
import EasyConnection.Codec.Search
import EasyConnection.Ssh.Smart

/-! # The shim before SSH

After the payload has been sent, the bytes before the marker are dropped, and the stream that SSH
takes over begins with the marker. The limit is on what has been read when the marker is found, not
on where the marker ends, so a long last read counts against it.
-/
namespace EasyConnection.Ssh
open Async Codec

/-- A stream with bytes in front of it, of which so many have been read. -/
structure PrefixedTcp where
  held : List UInt8
  position : ℕ
  inner : List (List UInt8)
  deriving DecidableEq

namespace PrefixedTcp
variable {room : ℕ}

def pollRead (room : ℕ) (tcp : PrefixedTcp) : List UInt8 × PrefixedTcp :=
  let remaining := tcp.held.length - tcp.position
  if 0 < remaining then
    let count := min remaining room
    ((tcp.held.drop tcp.position).take count, { tcp with position := tcp.position + count })
  else
    let read := Segments.pollArriving room tcp.inner
    (read.1, { tcp with inner := read.2 })

/-- What is still to be read. -/
def pending (tcp : PrefixedTcp) : List UInt8 := tcp.held.drop tcp.position ++ tcp.inner.flatten

theorem pollRead_append (room : ℕ) (tcp : PrefixedTcp) :
    (tcp.pollRead room).1 ++ (tcp.pollRead room).2.pending = tcp.pending := by
  unfold pollRead pending
  dsimp only
  split_ifs with h
  · rw [← List.drop_drop, ← List.append_assoc, List.take_append_drop]
  · have hread : tcp.held.drop tcp.position = [] := List.drop_of_length_le (by omega)
    rw [hread, List.nil_append, List.nil_append, Segments.pollArriving_append]

theorem pollRead_eq_nil (hroom : 0 < room) {tcp : PrefixedTcp} (h : (tcp.pollRead room).1 = []) :
    tcp.pending = [] := by
  unfold pollRead at h
  unfold pending
  dsimp only at h
  split_ifs at h with hheld
  · have hlength := congrArg List.length h
    rw [List.length_take, List.length_drop, List.length_nil] at hlength
    omega
  · rw [List.drop_of_length_le (by omega), List.nil_append, Segments.pollArriving_eq_nil hroom h]

/-- What reads with such rooms return, one after another. -/
def reads : List ℕ → PrefixedTcp → List UInt8 × PrefixedTcp
  | [], tcp => ([], tcp)
  | room :: rooms, tcp =>
    let rest := reads rooms (tcp.pollRead room).2
    ((tcp.pollRead room).1 ++ rest.1, rest.2)

theorem reads_append (rooms : List ℕ) (tcp : PrefixedTcp) :
    (tcp.reads rooms).1 ++ (tcp.reads rooms).2.pending = tcp.pending := by
  induction rooms generalizing tcp with
  | nil => rfl
  | cons room rooms ih => rw [reads, List.append_assoc, ih, pollRead_append]

/-- Reads return these bytes in order, and none of them nothing before the last byte is out. -/
structure Delivers (tcp : PrefixedTcp) (s : List UInt8) : Prop where
  part : ∀ rooms, (tcp.reads rooms).1 <+: s
  whole : ∀ rooms room, 0 < room → ((tcp.reads rooms).2.pollRead room).1 = [] →
    (tcp.reads rooms).1 = s

theorem delivers_pending (tcp : PrefixedTcp) : tcp.Delivers tcp.pending := by
  constructor
  · intro rooms
    exact ⟨_, tcp.reads_append rooms⟩
  · intro rooms room hroom h
    rw [← tcp.reads_append rooms, pollRead_eq_nil hroom h, List.append_nil]

end PrefixedTcp

section Shim
variable {endpoint : SmartEndpoint} {s : List UInt8} {reads : List (List UInt8)} {i : ℕ}
  {ending : Except SshError Unit}

def noBanner : SshError := smartError "SSH shim did not return an SSH banner"

def shimRoom (endpoint : SmartEndpoint) (length n : ℕ) : Except SshError Bool :=
  .ok (length + n ≤ endpoint.maxResponse)

def shimFound (endpoint : SmartEndpoint) (response : List UInt8) : Except SshError Bool :=
  .ok (position endpoint.marker response).isSome

/-- Whether the connection is opened and takes the payload, what its reads return, and whether the
last of them is the end of the stream or fails. -/
def openShim (endpoint : SmartEndpoint) (opened : Except SshError Unit) (reads : List (List UInt8))
    (ending : Except SshError Unit) : Except SshError PrefixedTcp := do
  opened
  match gather (shimRoom endpoint) (shimFound endpoint) [] reads with
  | .failed e => .error e
  | .tooLarge => .error noBanner
  | .closed _ =>
    ending
    .error noBanner
  | .stopped response rest =>
    let found ← okOr noBanner (position endpoint.marker response)
    return ⟨response.drop found, 0, rest⟩

theorem shimFound_part (hfound : position endpoint.marker s = some i) {b : List UInt8} (hb : b <+: s) :
    shimFound endpoint b = .ok (decide (i + endpoint.marker.length ≤ b.length)) := by
  rw [shimFound, position_part hfound hb]
  split_ifs with hle <;> simp [hle]

/-- A stream that is returned begins with the marker and has lost nothing after it. -/
theorem openShim_delivers {opened : Except SshError Unit} {tcp : PrefixedTcp}
    (hflatten : reads.flatten = s) (hok : openShim endpoint opened reads ending = .ok tcp) :
    ∃ i, position endpoint.marker s = some i ∧
      i + endpoint.marker.length ≤ endpoint.maxResponse ∧ tcp.Delivers (s.drop i) := by
  obtain ⟨-, hok⟩ := except_then_eq_ok.1 hok
  have hends : Ends (shimRoom endpoint) (shimFound endpoint) [] reads _ := gather_ends [] reads
  revert hends hok
  generalize gather (shimRoom endpoint) (shimFound endpoint) [] reads = r
  intro hok hends
  cases hends with
  | closed quiet =>
    obtain ⟨-, hok⟩ := except_then_eq_ok.1 hok
    cases hok
  | noRoom split quiet full => cases hok
  | roomFailed split quiet failed => cases hok
  | stopFailed split quiet fits failed => cases hok
  | @stopped before after piece split quiet fits enough =>
    obtain ⟨i, hfound, hok⟩ := except_bind_eq_ok.1 hok
    obtain rfl := Except.ok.inj hok
    rw [okOr_eq_ok] at hfound
    have hs : [] ++ before.flatten ++ piece ++ after.flatten = s := by
      rw [← hflatten, flatten_split split, List.nil_append]
    have hend := position_end_le hfound
    have hroom := of_decide_eq_true (Except.ok.inj fits)
    refine ⟨i, position_mono ⟨_, hs⟩ hfound, ?_, ?_⟩
    · rw [List.length_append] at hend
      omega
    · have hdrop : s.drop i = ([] ++ before.flatten ++ piece).drop i ++ after.flatten := by
        rw [← hs, List.drop_append_of_le_length (by omega)]
      rw [hdrop]
      exact PrefixedTcp.delivers_pending _

theorem openShim_succeeds (hmarker : endpoint.marker ≠ []) (hreads : Segmentation 4096 s reads)
    (hfound : position endpoint.marker s = some i)
    (hroom : s.length ≤ endpoint.maxResponse ∨
      i + endpoint.marker.length + 4095 ≤ endpoint.maxResponse) :
    ∃ tcp, openShim endpoint (.ok ()) reads ending = .ok tcp := by
  have hpos : 0 < endpoint.marker.length := List.length_pos_iff.2 hmarker
  unfold openShim
  rw [except_ok_bind]
  have hends : Ends (shimRoom endpoint) (shimFound endpoint) [] reads _ := gather_ends [] reads
  revert hends
  generalize gather (shimRoom endpoint) (shimFound endpoint) [] reads = r
  intro hends
  cases hends with
  | closed quiet =>
    have hend := position_end_le hfound
    have hne : reads ≠ [] := by
      rintro rfl
      rw [← hreads.flatten, List.flatten_nil, List.length_nil] at hend
      omega
    have hlast := quiet.last hne
    rw [List.nil_append, hreads.flatten, shimFound_part hfound List.prefix_rfl] at hlast
    exact absurd hend (of_decide_eq_false (Except.ok.inj hlast))
  | @noRoom before after piece split quiet full =>
    -- The reads before this one do not hold the whole marker, so this one ends soon after it.
    have hs : before.flatten ++ piece ++ after.flatten = s := by
      rw [← hreads.flatten, flatten_split split]
    have hbefore : before.flatten.length < i + endpoint.marker.length := by
      by_cases hnil : before = []
      · rw [hnil, List.flatten_nil, List.length_nil]
        omega
      · have hlast := quiet.last hnil
        have hpart : before.flatten <+: s := ⟨piece ++ after.flatten, by rw [← List.append_assoc, hs]⟩
        rw [List.nil_append, shimFound_part hfound hpart] at hlast
        exact Nat.lt_of_not_le (of_decide_eq_false (Except.ok.inj hlast))
    have hpiece := (hreads.piece piece (by rw [split]; simp)).2
    have hlength := congrArg List.length hs
    rw [List.length_append, List.length_append] at hlength
    have hfull : ¬ before.flatten.length + piece.length ≤ endpoint.maxResponse :=
      of_decide_eq_false (Except.ok.inj full)
    omega
  | roomFailed split quiet failed => cases failed
  | stopFailed split quiet fits failed => cases failed
  | @stopped before after piece split quiet fits enough =>
    obtain ⟨found, hposition⟩ := Option.isSome_iff_exists.1 (Except.ok.inj enough)
    dsimp only
    rw [hposition]
    exact ⟨_, rfl⟩

/-- The marker ends within the limit, but is in a read that goes beyond it. -/
theorem openShim_across (hmarker : endpoint.marker ≠ [])
    (hfound : position endpoint.marker s = some i)
    (hfits : i + endpoint.marker.length ≤ endpoint.maxResponse)
    (hlong : endpoint.maxResponse < s.length) :
    openShim endpoint (.ok ()) (singlesAround (i + endpoint.marker.length - 1)
      (endpoint.maxResponse + 2 - (i + endpoint.marker.length)) s) ending = .error noBanner := by
  have hpos : 0 < endpoint.marker.length := List.length_pos_iff.2 hmarker
  have hroom : ∀ a b, a + b ≤ i + endpoint.marker.length - 1 → shimRoom endpoint a b = .ok true := by
    intro a b hle
    exact congrArg Except.ok (decide_eq_true (by omega))
  have hbefore : ∀ b, b <+: s.take (i + endpoint.marker.length - 1) →
      shimFound endpoint b = .ok false := by
    intro b hb
    have hle := hb.length_le.trans (List.length_take_le ..)
    rw [shimFound_part hfound (hb.trans (List.take_prefix ..)), decide_eq_false (by omega)]
  have hfull : shimRoom endpoint (s.take (i + endpoint.marker.length - 1)).length
      ((s.drop (i + endpoint.marker.length - 1)).take
        (endpoint.maxResponse + 2 - (i + endpoint.marker.length))).length = .ok false := by
    refine congrArg Except.ok (decide_eq_false ?_)
    simp only [List.length_take, List.length_drop]
    omega
  unfold openShim
  rw [except_ok_bind, gather_singlesAround hroom hbefore, gather, hfull]

/-- Whether the shim is passed does not depend on the reads, and it is passed without a loss where
the marker ends within the limit, exactly if the limit leaves room for a whole read or for the whole
stream. -/
theorem shim_segmentation_iff {L : EndpointLibrary} {plain : List UInt8}
    {smart : Config.RocketSmartConfig} (hparsed : parseEndpoint L plain smart = .ok endpoint)
    (s : List UInt8) (ending : Except SshError Unit) :
    ((∀ reads reads', Segmentation 4096 s reads → Segmentation 4096 s reads' →
        ((∃ tcp, openShim endpoint (.ok ()) reads ending = .ok tcp) ↔
          ∃ tcp, openShim endpoint (.ok ()) reads' ending = .ok tcp)) ∧
      ∀ i, position endpoint.marker s = some i →
        i + endpoint.marker.length ≤ endpoint.maxResponse → ∀ reads, Segmentation 4096 s reads →
          ∃ tcp, openShim endpoint (.ok ()) reads ending = .ok tcp ∧ tcp.Delivers (s.drop i)) ↔
    ∀ i, position endpoint.marker s = some i →
      i + endpoint.marker.length ≤ endpoint.maxResponse →
        s.length ≤ endpoint.maxResponse ∨
          i + endpoint.marker.length + 4095 ≤ endpoint.maxResponse := by
  obtain ⟨hmarker, -, -⟩ := parseEndpoint_limits hparsed
  have hpos : 0 < endpoint.marker.length := List.length_pos_iff.2 hmarker
  constructor
  · rintro ⟨-, hpassed⟩ i hfound hfits
    by_contra hroom
    have hacross : Segmentation 4096 s (singlesAround (i + endpoint.marker.length - 1)
        (endpoint.maxResponse + 2 - (i + endpoint.marker.length)) s) :=
      segmentation_singlesAround (by omega) (by omega) (by omega)
    obtain ⟨tcp, htcp, -⟩ := hpassed i hfound hfits _ hacross
    rw [openShim_across hmarker hfound hfits (by omega)] at htcp
    cases htcp
  · intro hroom
    have hpassed : ∀ i, position endpoint.marker s = some i →
        i + endpoint.marker.length ≤ endpoint.maxResponse → ∀ reads, Segmentation 4096 s reads →
          ∃ tcp, openShim endpoint (.ok ()) reads ending = .ok tcp ∧ tcp.Delivers (s.drop i) := by
      intro i hfound hfits reads hreads
      obtain ⟨tcp, htcp⟩ := openShim_succeeds hmarker hreads hfound (hroom i hfound hfits)
      obtain ⟨j, hj, -, hdelivers⟩ := openShim_delivers hreads.flatten htcp
      obtain rfl := Option.some.inj (hfound.symm.trans hj)
      exact ⟨tcp, htcp, hdelivers⟩
    refine ⟨?_, hpassed⟩
    have hboth : ∀ reads reads', Segmentation 4096 s reads → Segmentation 4096 s reads' →
        (∃ tcp, openShim endpoint (.ok ()) reads ending = .ok tcp) →
          ∃ tcp, openShim endpoint (.ok ()) reads' ending = .ok tcp := by
      rintro reads reads' hreads hreads' ⟨tcp, htcp⟩
      obtain ⟨i, hfound, hfits, -⟩ := openShim_delivers hreads.flatten htcp
      obtain ⟨tcp', htcp', -⟩ := hpassed i hfound hfits reads' hreads'
      exact ⟨tcp', htcp'⟩
    exact fun reads reads' hreads hreads' =>
      ⟨hboth reads reads' hreads hreads', hboth reads' reads hreads' hreads⟩

def parsedSample (limit : ℕ) : SmartEndpoint where
  host := "example.invalid"
  port := 80
  username := "user"
  password := "secret"
  payload := "GET example.invalid:80 HTTP/1.1\r\n\r\n".toUTF8.data.toList
  marker := "SSH-2.0-".toUTF8.data.toList
  maxResponse := limit

def sampleAnswer : List UInt8 := "HTTP/1.1 200 OK\r\n\r\nSSH-2.0-x\r\n".toUTF8.data.toList

theorem sample_answer_passed :
    ∃ tcp, openShim (parsedSample 8192) (.ok ()) [sampleAnswer] (.ok ()) = .ok tcp ∧
      tcp.Delivers (sampleAnswer.drop 19) := by
  have hparsed : parseEndpoint (sampleLibrary 8192) (Sample.jsonBytes (patchJson 8192)) twoHosts =
      .ok (parsedSample 8192) := by
    decide +kernel
  have hone : Segmentation 4096 sampleAnswer [sampleAnswer] := ⟨by decide +kernel, by decide +kernel⟩
  exact ((shim_segmentation_iff hparsed sampleAnswer (.ok ())).2
    fun _ _ _ => .inl (by decide +kernel)).2 19 (by decide +kernel) (by decide +kernel) _ hone

/-- The marker ends where the limit is. -/
theorem long_read_refused :
    parseEndpoint (sampleLibrary 27) (Sample.jsonBytes (patchJson 27)) twoHosts =
        .ok (parsedSample 27) ∧
      position (parsedSample 27).marker sampleAnswer = some 19 ∧
      (∃ tcp, openShim (parsedSample 27) (.ok ()) [sampleAnswer.take 27, sampleAnswer.drop 27] (.ok ()) =
        .ok tcp) ∧
      openShim (parsedSample 27) (.ok ()) [sampleAnswer] (.ok ()) = .error noBanner := by
  refine ⟨by decide +kernel, by decide +kernel, ?_, by decide +kernel⟩
  exact ⟨⟨sampleAnswer.drop 19 |>.take 8, 0, [sampleAnswer.drop 27]⟩, by decide +kernel⟩

end Shim

end EasyConnection.Ssh
