import EasyConnection.Async.HalfClose
import EasyConnection.Shadowsocks.Pump
import EasyConnection.WebSocket.Pump

/-! # Half-close of the transports

A client that has sent its request may shut its write half and read on. The tasks behind the
WebSocket and the Shadowsocks streams end at that point, so the response reaches the client only
if it is complete by then.
-/
namespace EasyConnection.Transport
open Async

/-- In a run in which local bytes interrupt them only between two records, both tasks hand on the
whole of what the server sends until it closes, exactly if they read the end of the local bytes
only after the last byte of it. -/
theorem half_close_keeps_response (rng : ℕ → WebSocket.MaskKey) (fs : List WebSocket.ServerFrame)
    (last : Option WebSocket.CloseFrame) {C : Shadowsocks.Crypto} (hC : C.Lawful) (enc : C.Cipher)
    (method : Shadowsocks.AeadMethod) (master : List UInt8) {cs : List (List UInt8)}
    {wire : List UInt8} (hwire : Shadowsocks.Served (C := C) method master cs wire) :
    (WebSocket.pump rng).KeepsResponse WebSocket.Await.boundary 0
      (WebSocket.wires fs ++ WebSocket.farewell last) (WebSocket.payloads fs) ∧
    (Shadowsocks.pump enc method master).KeepsResponse Shadowsocks.Await.boundary
      (Shadowsocks.SsState.initial C) wire cs.flatten := by
  constructor
  · exact Pump.keepsResponse (WebSocket.pump_sound rng last) ⟨fs, rfl, rfl⟩
  · exact Pump.keepsResponse (Shadowsocks.pump_sound hC enc method master) ⟨rfl, cs, hwire, rfl⟩

/-- The server's answer, of one frame. -/
def answer : List WebSocket.ServerFrame := [WebSocket.binary [0x41] (by decide)]

def goodbye : WebSocket.CloseFrame := ⟨WebSocket.finFlag, [], by decide⟩

def answerPump : Pump WebSocket.Await ℕ WebSocket.Turn WebSocket.WsError :=
  WebSocket.pump fun _ => WebSocket.zeroKey

/-- A task that speaks Shadowsocks with the stand-in for the libraries. -/
def plainPump := Shadowsocks.pump (C := Shadowsocks.plainCrypto) () .aes128Gcm []

def frameFirst : List Pump.Event :=
  [.localRead [0x68], .accept 7, .arrive 3, .take 2, .take 1, .deliver 1, .localEof, .arrive 2,
    .close]

def chunkFirst : List Pump.Event :=
  [.localRead [0x68], .accept 35, .arrive 52, .take 16, .take 18, .take 18, .deliver 2, .localEof,
    .close]

/-- A request, the whole response, and then the end of the local bytes: the server's close frame
comes later. -/
theorem half_close_after_response :
    (∃ st, run answerPump.step (answerPump.initial 0 (WebSocket.wires answer ++ goodbye.wire))
        frameFirst = some st ∧ st.delivered = WebSocket.payloads answer) ∧
    ∃ st, run plainPump.step (plainPump.initial (Shadowsocks.SsState.initial _) Shadowsocks.zeroWire)
        chunkFirst = some st ∧ st.delivered = [[0, 0]].flatten := by
  obtain ⟨hframes, hchunks⟩ := half_close_keeps_response (fun _ => WebSocket.zeroKey) answer
    (some goodbye) Shadowsocks.plainCrypto_lawful () .aes128Gcm [] Shadowsocks.zeroWire_served
  constructor
  · exact ⟨_, rfl, (hframes frameFirst _ (by decide) (by decide) rfl
      (.of_ended rfl rfl rfl)).2 (by decide)⟩
  · exact ⟨_, rfl, (hchunks chunkFirst _ (by decide) (by decide) rfl
      (.of_ended rfl rfl rfl)).2 (by decide)⟩

/-- A request and the end of the local bytes, before the response: none of it is handed on. -/
theorem half_close_truncates_response :
    (∃ st, run answerPump.step (answerPump.initial 0 (WebSocket.wires answer))
        [.localRead [0x68], .accept 7, .localEof, .arrive 3, .close] = some st ∧
      answerPump.Finished st ∧ st.delivered = [] ∧ WebSocket.payloads answer = [0x41]) ∧
    ∃ st, run plainPump.step (plainPump.initial (Shadowsocks.SsState.initial _) Shadowsocks.zeroWire)
        [.localRead [0x68], .accept 35, .localEof, .arrive 52, .close] = some st ∧
      plainPump.Finished st ∧ st.delivered = [] ∧ [[(0 : UInt8), 0]].flatten = [0, 0] := by
  constructor
  · exact ⟨_, rfl, .of_ended rfl rfl rfl, rfl, rfl⟩
  · exact ⟨_, rfl, .of_ended rfl rfl rfl, rfl, rfl⟩

end EasyConnection.Transport
