import Bluzing.Gatt.Definitions
import Bluzing.Hogp.Client

/-! A server of HID reports: a table of attributes with the values that are read from it, and a
conversation in which it answers every request of the client. -/
namespace Bluzing.Hogp

def pageReply (table : Gatt.Table) (request : Bytes) : Bytes :=
  match Gatt.parseRequest request with
  | none => []
  | some (kind, startHandle, endHandle) =>
      match Gatt.inRange (table.items kind) startHandle endHandle with
      | [] => Gatt.notFoundReply (request.headD 0) startHandle
      | item :: rest =>
          kind.responseOpcode :: Gatt.responseParams kind item.octets.length
            (item :: rest.takeWhile fun i => i.octets.length == item.octets.length)

lemma pageReply_honest (table : Gatt.Table) {request : Bytes}
    (h : (Gatt.parseRequest request).isSome = true) :
    Gatt.Honest table request (pageReply table request) := by
  obtain ⟨⟨kind, startHandle, endHandle⟩, hrequest⟩ := Option.isSome_iff_exists.mp h
  unfold pageReply
  rw [hrequest]
  dsimp only
  split
  next hnone => exact .notFound hrequest hnone _ _
  next item rest hitems =>
    let same (i : Gatt.Item) : Bool := i.octets.length == item.octets.length
    have hpage : Gatt.inRange (table.items kind) startHandle endHandle =
        (item :: rest.takeWhile same) ++ rest.dropWhile same := by
      rw [hitems, List.cons_append, List.takeWhile_append_dropWhile]
    refine .found hrequest hpage (List.cons_ne_nil _ _) ?_
    · refine List.forall_mem_cons.mpr ⟨rfl, fun i hi => ?_⟩
      have hsame := List.mem_takeWhile_imp hi
      exact eq_of_beq hsame

structure Server where
  table : Gatt.Table
  value : UInt16 → Bytes

def Server.reply (server : Server) (request : Bytes) : Bytes :=
  if (Gatt.parseRequest request).isSome then pageReply server.table request
  else if request.head? = some Gatt.opcodeWriteRequest then [Gatt.opcodeWriteResponse]
  else
    match request with
    | [_, h0, h1] => Gatt.opcodeReadResponse :: server.value (readLe16 h0 h1)
    | _ => []

lemma Server.reply_honest (server : Server) {request : Bytes}
    (h : (Gatt.parseRequest request).isSome = true) :
    Gatt.Honest server.table request (server.reply request) := by
  unfold reply
  rw [if_pos h]
  exact pageReply_honest server.table h

def Server.answers (server : Server) (env : Env) : ℕ → World → List Input
  | 0, _ => []
  | n + 1, w =>
      let input := .gatt (.data (server.reply (Gatt.lastRequest w.gatt.history)) 1)
      input :: server.answers env n (apply env w input)

def opening : List Input :=
  [.gatt (.connect true true 1), .gatt (.data [Gatt.opcodeExchangeMtuResponse, 247, 0] 1),
    .discover true true 1]

def promptEnv : Env := ⟨fun _ => true, fun _ => true, fun _ => true⟩

def Server.discovery (server : Server) (n : ℕ) : List Input :=
  opening ++ server.answers promptEnv n (run promptEnv opening)

end Bluzing.Hogp
