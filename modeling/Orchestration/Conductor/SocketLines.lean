import Orchestration.Js.JsonLine
import Orchestration.Js.Utf8

/-!
# The lines of a socket

Two processes exchange messages over a socket, one JSON text a line. Wherever the bytes are cut
into chunks, the receiver hands on the messages in order, and reports a line that is no message
without losing the lines around it.
-/

namespace Orchestration.Conductor

open Js (Json Bytes NumberText jsonLine encodeUtf8 decodeUtf8)

/-- The fields of a message. -/
abbrev JSONRPCMessage := List (String × Json)

/-- How messages are written and read: `JSON`, and the schema of the protocol. -/
structure MessageCodec where
  numbers : NumberText
  /-- `JSON.parse`. -/
  parse : List Char → Except String Json
  /-- `JSONRPCMessageSchema.parse`. -/
  schema : Json → Except String JSONRPCMessage

namespace MessageCodec

variable (codec : MessageCodec)

/-- `JSON.stringify(message)`. -/
def stringify (message : JSONRPCMessage) : List Char := jsonLine codec.numbers (.obj message)

def serializedMessage (message : JSONRPCMessage) : List Char := codec.stringify message ++ ['\n']

/-- `line.replace(/\r$/u, '')`. -/
def stripCarriageReturn (line : List Char) : List Char :=
  if line.getLast? = some '\r' then line.dropLast else line

/-- The message that the bytes of a line hold. -/
def readLine (line : Bytes) : Except String JSONRPCMessage := do
  codec.schema (← codec.parse (stripCarriageReturn (decodeUtf8 line)))

/-- The message is read back: the parser inverts the writer, and the schema accepts the message. -/
def Accepts (message : JSONRPCMessage) : Prop :=
  codec.parse (codec.stringify message) = .ok (.obj message) ∧
    codec.schema (.obj message) = .ok message

end MessageCodec

/-- What a socket hands over. -/
inductive Chunk where
  | buffer (bytes : Bytes)
  | string (text : List Char)

def Chunk.toBytes : Chunk → Bytes
  | .buffer bytes => bytes
  | .string text => encodeUtf8 text

def LINE_FEED : UInt8 := 0x0A

/-- The first line of a buffer, and what follows it. -/
def nextLine (buffer : Bytes) : Option (Bytes × Bytes) :=
  match buffer.dropWhile (· ≠ LINE_FEED) with
  | [] => none
  | _ :: rest => some (buffer.takeWhile (· ≠ LINE_FEED), rest)

theorem nextLine_of_notMem {line : Bytes} (h : LINE_FEED ∉ line) : nextLine line = none := by
  have hnone : line.dropWhile (· ≠ LINE_FEED) = [] := by
    rw [List.dropWhile_eq_nil_iff]
    intro b hb
    exact decide_eq_true fun heq => h (heq ▸ hb)
  rw [nextLine, hnone]

theorem nextLine_line {line : Bytes} (h : LINE_FEED ∉ line) (rest : Bytes) :
    nextLine (line ++ LINE_FEED :: rest) = some (line, rest) := by
  have hall : ∀ b ∈ line, decide (b ≠ LINE_FEED) = true :=
    fun b hb => decide_eq_true fun heq => h (heq ▸ hb)
  have hdrop : (line ++ LINE_FEED :: rest).dropWhile (· ≠ LINE_FEED) = LINE_FEED :: rest := by
    rw [List.dropWhile_append_of_pos hall]
    exact List.dropWhile_cons_of_neg (by decide)
  have htake : (line ++ LINE_FEED :: rest).takeWhile (· ≠ LINE_FEED) = line := by
    rw [List.takeWhile_append_of_pos hall, List.takeWhile_cons_of_neg (by decide),
      List.append_nil]
  rw [nextLine, hdrop, htake]

/-- A buffer holds a line or it does not. -/
theorem nextLine_cases (buffer : Bytes) :
    LINE_FEED ∉ buffer ∨ ∃ line rest, LINE_FEED ∉ line ∧ buffer = line ++ LINE_FEED :: rest := by
  by_cases hmem : LINE_FEED ∈ buffer
  · obtain ⟨line, rest, heq, hline⟩ := List.eq_append_cons_of_mem hmem
    exact .inr ⟨line, rest, hline, heq⟩
  · exact .inl hmem

theorem length_lt_of_nextLine {buffer line rest : Bytes} (h : nextLine buffer = some (line, rest)) :
    rest.length < buffer.length := by
  obtain hnone | ⟨line', rest', hline, rfl⟩ := nextLine_cases buffer
  · rw [nextLine_of_notMem hnone] at h
    cases h
  · rw [nextLine_line hline] at h
    obtain ⟨rfl, rfl⟩ := Prod.mk.inj (Option.some.inj h)
    rw [List.length_append, List.length_cons]
    omega

/-! ## The receiver -/

/-- A call of one of the handlers of the transport. -/
inductive HandlerCall where
  | onmessage (message : JSONRPCMessage)
  | onerror (error : String)

section

variable (codec : MessageCodec) (onmessage : JSONRPCMessage → Option String)

/-- A message goes to the handler; what the handler throws, if anything, is reported. -/
def deliver (message : JSONRPCMessage) : List HandlerCall :=
  .onmessage message :: (onmessage message).toList.map .onerror

/-- One round of the read loop. -/
def handleLine (line : Bytes) : List HandlerCall :=
  match codec.readLine line with
  | .ok message => deliver onmessage message
  | .error error => [.onerror error]

/-- The read loop: the calls that it makes, and the bytes of the line that is not complete. -/
def readLines (buffer : Bytes) : List HandlerCall × Bytes :=
  match _h : nextLine buffer with
  | none => ([], buffer)
  | some (line, rest) =>
    (handleLine codec onmessage line ++ (readLines rest).1, (readLines rest).2)
termination_by buffer.length
decreasing_by all_goals exact length_lt_of_nextLine ‹_›

def processChunk (buffer : Bytes) (chunk : Chunk) : List HandlerCall × Bytes :=
  readLines codec onmessage (buffer ++ chunk.toBytes)

/-- The calls for the chunks of a connection, one after the other. -/
def processChunks : Bytes → List Chunk → List HandlerCall × Bytes
  | buffer, [] => ([], buffer)
  | buffer, chunk :: chunks =>
    let (calls, buffer) := processChunk codec onmessage buffer chunk
    (calls ++ (processChunks buffer chunks).1, (processChunks buffer chunks).2)

variable {codec onmessage}

theorem readLines_of_notMem {line : Bytes} (h : LINE_FEED ∉ line) :
    readLines codec onmessage line = ([], line) := by
  rw [readLines]
  split
  · rfl
  · next hnext =>
    rw [nextLine_of_notMem h] at hnext
    cases hnext

theorem readLines_line {line : Bytes} (h : LINE_FEED ∉ line) (rest : Bytes) :
    readLines codec onmessage (line ++ LINE_FEED :: rest) =
      (handleLine codec onmessage line ++ (readLines codec onmessage rest).1,
        (readLines codec onmessage rest).2) := by
  rw [readLines]
  split
  · next hnext =>
    rw [nextLine_line h] at hnext
    cases hnext
  · next hnext =>
    rw [nextLine_line h] at hnext
    cases hnext
    rfl

/-- A buffer is read line by line. -/
theorem bytes_induction {P : Bytes → Prop} (hpart : ∀ line, LINE_FEED ∉ line → P line)
    (hline : ∀ line rest, LINE_FEED ∉ line → P rest → P (line ++ LINE_FEED :: rest))
    (buffer : Bytes) : P buffer := by
  induction hn : buffer.length using Nat.strong_induction_on generalizing buffer with
  | _ n ih =>
    obtain hnone | ⟨line, rest, hnone, rfl⟩ := nextLine_cases buffer
    · exact hpart buffer hnone
    · rw [List.length_append, List.length_cons] at hn
      exact hline line rest hnone (ih rest.length (by omega) rest rfl)

/-- What is left is no whole line. -/
theorem lineFeed_notMem_readLines (buffer : Bytes) :
    LINE_FEED ∉ (readLines codec onmessage buffer).2 := by
  induction buffer using bytes_induction with
  | hpart line hnone => rwa [readLines_of_notMem hnone]
  | hline line rest hnone ih => rwa [readLines_line hnone]

/-- What is not complete is read again, with what comes after it. -/
theorem readLines_append (buffer more : Bytes) :
    readLines codec onmessage (buffer ++ more) =
      ((readLines codec onmessage buffer).1 ++
          (readLines codec onmessage ((readLines codec onmessage buffer).2 ++ more)).1,
        (readLines codec onmessage ((readLines codec onmessage buffer).2 ++ more)).2) := by
  induction buffer using bytes_induction with
  | hpart line hnone =>
    rw [readLines_of_notMem hnone]
    rfl
  | hline line rest hnone ih =>
    rw [List.append_assoc, List.cons_append, readLines_line hnone, readLines_line hnone, ih,
      List.append_assoc]

/-- Cutting the bytes into chunks changes nothing. -/
theorem processChunks_eq {buffer : Bytes} (hbuffer : LINE_FEED ∉ buffer) (chunks : List Chunk) :
    processChunks codec onmessage buffer chunks =
      readLines codec onmessage (buffer ++ (chunks.map Chunk.toBytes).flatten) := by
  induction chunks generalizing buffer with
  | nil =>
    rw [List.map_nil, List.flatten_nil, List.append_nil, readLines_of_notMem hbuffer]
    rfl
  | cons chunk chunks ih =>
    rw [List.map_cons, List.flatten_cons, ← List.append_assoc, readLines_append,
      ← ih (lineFeed_notMem_readLines _)]
    rfl

end

/-! ## Lines that were sent -/

/-- What stands between two line feeds of a stream: a message, or a line that is none. -/
inductive SentLine where
  | message (message : JSONRPCMessage)
  | malformed (line : Bytes) (error : String)

namespace SentLine

variable (codec : MessageCodec) (onmessage : JSONRPCMessage → Option String)

def bytes : SentLine → Bytes
  | .message sent => encodeUtf8 (codec.serializedMessage sent)
  | .malformed line _ => line ++ [LINE_FEED]

/-- The handlers' calls for a line. -/
def calls : SentLine → List HandlerCall
  | .message sent => deliver onmessage sent
  | .malformed _ error => [.onerror error]

/-- A message can be read back; a malformed line is one line, and no message. -/
def Sent : SentLine → Prop
  | .message sent => codec.Accepts sent
  | .malformed line error => LINE_FEED ∉ line ∧ codec.readLine line = .error error

variable {codec onmessage}

/-- The text of a message is one line, and it is read as the message. -/
theorem bytes_message {sent : JSONRPCMessage} (h : codec.Accepts sent) :
    ∃ line, LINE_FEED ∉ line ∧ bytes codec (.message sent) = line ++ [LINE_FEED] ∧
      codec.readLine line = .ok sent := by
  refine ⟨encodeUtf8 (codec.stringify sent), fun hmem => ?_, ?_, ?_⟩
  · exact Js.lineFeed_notMem_jsonLine _ _ (Js.mem_encodeUtf8 hmem)
  · show encodeUtf8 (codec.stringify sent ++ ['\n']) = _
    rw [encodeUtf8, List.flatMap_append]
    rfl
  · have hstrip : MessageCodec.stripCarriageReturn (codec.stringify sent) =
        codec.stringify sent := if_neg (Js.getLast?_jsonLine_ne _ _)
    rw [MessageCodec.readLine, Js.decodeUtf8_encodeUtf8, hstrip, h.1]
    exact h.2

/-- Every line that was sent makes its calls. -/
theorem readLines_sent {line : SentLine} (h : line.Sent codec) (rest : Bytes) :
    readLines codec onmessage (line.bytes codec ++ rest) =
      (line.calls onmessage ++ (readLines codec onmessage rest).1,
        (readLines codec onmessage rest).2) := by
  cases line with
  | message sent =>
    obtain ⟨line, hnone, hbytes, hread⟩ := bytes_message h
    rw [hbytes, List.append_assoc, List.singleton_append, readLines_line hnone, handleLine, hread]
    rfl
  | malformed line error =>
    obtain ⟨hnone, hread⟩ := h
    rw [bytes, List.append_assoc, List.singleton_append, readLines_line hnone, handleLine, hread]
    rfl

end SentLine

section

variable {codec : MessageCodec} {onmessage : JSONRPCMessage → Option String}

theorem readLines_allSent {lines : List SentLine} (h : ∀ line ∈ lines, line.Sent codec) :
    readLines codec onmessage (lines.flatMap (SentLine.bytes codec)) =
      (lines.flatMap (SentLine.calls onmessage), []) := by
  induction lines with
  | nil => exact readLines_of_notMem List.not_mem_nil
  | cons line lines ih =>
    rw [List.forall_mem_cons] at h
    rw [List.flatMap_cons, SentLine.readLines_sent h.1, ih h.2]
    rfl

/-- Messages arrive in order and each malformed line is reported, wherever the bytes are cut. -/
theorem lines_arrive {lines : List SentLine} (hlines : ∀ line ∈ lines, line.Sent codec)
    {chunks : List Chunk}
    (hchunks : (chunks.map Chunk.toBytes).flatten = lines.flatMap (SentLine.bytes codec)) :
    processChunks codec onmessage [] chunks = (lines.flatMap (SentLine.calls onmessage), []) := by
  rw [processChunks_eq List.not_mem_nil, List.nil_append, hchunks, readLines_allSent hlines]

end

/-- A notification whose strings hold line separators. -/
def separated : JSONRPCMessage := [("jsonrpc", .str "2.0"), ("method", .str "é\u2028\r\n")]

def zeroText : NumberText := ⟨fun _ => ['0'], fun _ c hc => .inl (List.mem_singleton.1 hc ▸ rfl)⟩

/-- A codec that reads one message. -/
def separatedCodec : MessageCodec where
  numbers := zeroText
  parse text :=
    if text = jsonLine zeroText (.obj separated) then .ok (.obj separated)
    else .error "SyntaxError"
  schema
    | .obj fields => .ok fields
    | _ => .error "ZodError"

theorem separatedCodec_parse (text : List Char) :
    separatedCodec.parse text =
      if text = jsonLine zeroText (.obj separated) then .ok (.obj separated)
      else .error "SyntaxError" := rfl

theorem accepts_separated : separatedCodec.Accepts separated := by
  refine ⟨?_, rfl⟩
  rw [separatedCodec_parse]
  exact if_pos rfl

theorem readLine_brace :
    separatedCodec.readLine (encodeUtf8 ['{', '\r']) = .error "SyntaxError" := by
  have hne : ['{'] ≠ jsonLine zeroText (.obj separated) := by
    intro h
    simp only [separated, jsonLine] at h
    cases h
  have hstrip : MessageCodec.stripCarriageReturn ['{', '\r'] = ['{'] := by decide
  rw [MessageCodec.readLine, Js.decodeUtf8_encodeUtf8, hstrip, separatedCodec_parse, if_neg hne]
  rfl

/-- A message, a line that is none, and the message again. -/
def separatedLines : List SentLine :=
  [.message separated, .malformed (encodeUtf8 ['{', '\r']) "SyntaxError", .message separated]

/-- The bytes of the lines, cut within a character. -/
def separatedChunks : List Chunk :=
  let bytes := separatedLines.flatMap (SentLine.bytes separatedCodec)
  [.buffer (bytes.take 28), .buffer (bytes.drop 28)]

theorem lines_arrive_separated :
    processChunks separatedCodec (fun _ => none) [] separatedChunks =
      ([.onmessage separated, .onerror "SyntaxError", .onmessage separated], []) := by
  have hline : LINE_FEED ∉ encodeUtf8 ['{', '\r'] := by decide
  have hsent : ∀ line ∈ separatedLines, line.Sent separatedCodec := by
    intro line hmem
    simp only [separatedLines, List.mem_cons, List.not_mem_nil, or_false] at hmem
    obtain rfl | rfl | rfl := hmem
    · exact accepts_separated
    · exact ⟨hline, readLine_brace⟩
    · exact accepts_separated
  refine lines_arrive hsent ?_
  simp [separatedChunks, Chunk.toBytes, List.take_append_drop]

end Orchestration.Conductor
