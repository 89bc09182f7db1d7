import StagedTransfer.Proofs.Json.Shaped
import StagedTransfer.Wire.Plan

/-!
# Texts of requests and answers

What is sent to the gateway and what it answers is told by texts. The text of a message is decoded
as that message, and so is every other text of whatever stands for it.
-/

namespace StagedTransfer.Wire

open Json

/-- The kinds of messages and of the records inside them. -/
inductive Kind
  | transferJob
  | schedulerJob
  | jobStatus
  | jobTask
  | jobTime
  | fileStat
  | uploadPlanRequest
  | downloadPlanRequest
  | targetPathRequest
  | compressRequest
  | uploadPlan
  | downloadPlan
  | transferJobResponse
  | jobsResponse
  | fileStatResponse

namespace Kind

/-- The messages of a kind. -/
abbrev Payload : Kind → Type
  | transferJob         => TransferJob
  | schedulerJob        => SchedulerJob
  | jobStatus           => JobStatus
  | jobTask             => JobTask
  | jobTime             => JobTime
  | fileStat            => FileStat
  | uploadPlanRequest   => UploadPlanRequest
  | downloadPlanRequest => DownloadPlanRequest
  | targetPathRequest   => TargetPathRequest
  | compressRequest     => CompressRequest
  | uploadPlan          => UploadPlan
  | downloadPlan        => DownloadPlan
  | transferJobResponse => TransferJobResponse
  | jobsResponse        => JobsResponse
  | fileStatResponse    => FileStatResponse

instance : (k : Kind) → Message k.Payload
  | transferJob         => inferInstanceAs (Message TransferJob)
  | schedulerJob        => inferInstanceAs (Message SchedulerJob)
  | jobStatus           => inferInstanceAs (Message JobStatus)
  | jobTask             => inferInstanceAs (Message JobTask)
  | jobTime             => inferInstanceAs (Message JobTime)
  | fileStat            => inferInstanceAs (Message FileStat)
  | uploadPlanRequest   => inferInstanceAs (Message UploadPlanRequest)
  | downloadPlanRequest => inferInstanceAs (Message DownloadPlanRequest)
  | targetPathRequest   => inferInstanceAs (Message TargetPathRequest)
  | compressRequest     => inferInstanceAs (Message CompressRequest)
  | uploadPlan          => inferInstanceAs (Message UploadPlan)
  | downloadPlan        => inferInstanceAs (Message DownloadPlan)
  | transferJobResponse => inferInstanceAs (Message TransferJobResponse)
  | jobsResponse        => inferInstanceAs (Message JobsResponse)
  | fileStatResponse    => inferInstanceAs (Message FileStatResponse)

/-- The shape of the messages of a kind. -/
abbrev shape (k : Kind) : Shape :=
  Message.shape k.Payload

/-- The bytes of the text of a message. -/
def encode (k : Kind) (v : k.Payload) : Bytes :=
  Utf8.encode (Message.encode v)

/-- The message of a kind that bytes hold. -/
def decode (k : Kind) (bytes : Bytes) : Except ReadError k.Payload :=
  Message.decodeBytes bytes

/-- The bytes are those of a text that may be written for a message, the entries of its tables in any
order. -/
def Encodes (k : Kind) (bytes : Bytes) (v : k.Payload) : Prop :=
  ∃ w, k.shape.Writes w (Message.carry v) ∧ bytes = Utf8.encode w.render

lemma encodes_encode (k : Kind) (v : k.Payload) : k.Encodes (k.encode v) v :=
  ⟨_, k.shape.writes_write _, rfl⟩

lemma isSound_shape (k : Kind) : k.shape.isSound = true := by
  cases k <;> decide

end Kind

/-! ### Decoding -/

section

variable {α : Type} [Message α]

lemma decodeBytes_encodeChars (text : List Char) :
    (Message.decodeBytes (Utf8.encodeChars text) : Except ReadError α) =
      ((Message.shape α).decode (text.map .char)).map Message.ofCarried := by
  rw [Message.decodeBytes, Utf8.glyphs, Utf8.glyphsUpTo_encodeChars _ (Nat.le_refl _)]
  rfl

lemma decodeBytes_of_standsFor (sound : (Message.shape α).isSound = true) {text : List Char}
    {r : Reading} (h : SpellsText text r) {v : α}
    (stands : (Message.shape α).StandsFor r (Message.carry v)) :
    Message.decodeBytes (Utf8.encodeChars text) = .ok v := by
  rw [decodeBytes_encodeChars, Shape.decode_of_standsFor sound h stands]
  exact congrArg Except.ok (Message.ofCarried_carry v)

lemma decodeBytes_of_writes (sound : (Message.shape α).isSound = true) {w : Value} {v : α}
    (h : (Message.shape α).Writes w (Message.carry v)) :
    Message.decodeBytes (Utf8.encode w.render) = .ok v :=
  decodeBytes_of_standsFor sound (Shape.spells_of_writes h) (Shape.standsFor_of_writes _ sound h)

end

lemma Kind.decode_of_encodes (k : Kind) {bytes : Bytes} {v : k.Payload} (h : k.Encodes bytes v) :
    k.decode bytes = .ok v := by
  obtain ⟨w, writes, rfl⟩ := h
  exact decodeBytes_of_writes k.isSound_shape writes

/-- The text of a message is decoded as that message, in whatever order the entries of its tables are
written. So writing again what a text was decoded as changes nothing in how it is decoded. -/
theorem Kind.roundTrip (k : Kind) :
    (∀ v : k.Payload, k.decode (k.encode v) = .ok v) ∧
      (∀ bytes : Bytes, (k.decode bytes >>= fun v => k.decode (k.encode v)) = k.decode bytes) ∧
      ∀ (v : k.Payload) (bytes : Bytes), k.Encodes bytes v → k.decode bytes = .ok v := by
  have back (v : k.Payload) : k.decode (k.encode v) = .ok v :=
    k.decode_of_encodes (k.encodes_encode v)
  refine ⟨back, fun bytes => ?_, fun v bytes => k.decode_of_encodes⟩
  cases k.decode bytes with
  | error e => rfl
  | ok v => exact back v

/-- A job whose second log is written first. -/
theorem Kind.roundTrip_secondLogFirst :
    let logs : OrderedMap String String := .ofList [("a", "b"), ("c", "d")]
    let bytes := Utf8.encode ("\x7b\"jobId\":0,\"system\":\"\",\"workingDirectory\":\"\"," ++
      "\"logs\":\x7b\"c\":\"d\",\"a\":\"b\"\x7d\x7d")
    Kind.transferJob.Encodes bytes ⟨0, "", "", logs⟩ ∧
      Kind.transferJob.decode bytes = .ok ⟨0, "", "", logs⟩ := by
  intro logs bytes
  have written : Kind.transferJob.Encodes bytes ⟨0, "", "", logs⟩ := by
    refine ⟨.object [("jobId", .number (.integer 0)), ("system", .string ""),
      ("workingDirectory", .string ""),
      ("logs", .object [("c", .string "d"), ("a", .string "b")])], ⟨_, rfl, ?_⟩, by decide⟩
    exact ⟨_, _, rfl, rfl, _, _, rfl, rfl, _, _, rfl, rfl, _, _, rfl,
      ⟨[("c", "d"), ("a", "b")], .swap _ _ _, rfl⟩, rfl⟩
  exact ⟨written, (Kind.roundTrip .transferJob).2.2 _ bytes written⟩

/-- A text of whatever stands for a message is decoded as that message, and no text is decoded that
holds a known key twice. -/
theorem Kind.decode_spelled (k : Kind) {text : List Char} {r : Reading} (h : SpellsText text r) :
    (∀ v : k.Payload, k.shape.StandsFor r (Message.carry v) →
        k.decode (Utf8.encodeChars text) = .ok v) ∧
      (k.shape.Repeats r → ∃ e, k.decode (Utf8.encodeChars text) = .error e) := by
  refine ⟨fun v => decodeBytes_of_standsFor k.isSound_shape h, fun repeats => ?_⟩
  obtain ⟨e, he⟩ := Shape.decode_of_repeats k.isSound_shape h repeats
  refine ⟨e, ?_⟩
  rw [Kind.decode, decodeBytes_encodeChars, he]
  rfl

/-- Members that nobody knows stand before and after the attributes, which are given as an array
that ends early. The other text holds the known key twice. -/
theorem Kind.decode_spelled_scattered :
    Kind.fileStatResponse.decode
        (Utf8.encode "\x7b \"x\":[\x7b\x7d],\"output\":[7] ,\"x\":null\x7d") =
      .ok ⟨some { (default : FileStat) with mode := 7 }⟩ ∧
    ∃ e, Kind.fileStatResponse.decode
        (Utf8.encode "\x7b\"output\":null,\"output\":[7]\x7d") = .error e := by
  have seven : Spells ['[', '7', ']'] (.array [.number (.integer 7)] none) :=
    Value.spells (.array [.number (.integer 7)]) ⟨by constructor <;> decide, trivial⟩
  have nothing : SpellsText ['n', 'u', 'l', 'l'] .null := Spells.null.alone
  have nested : SpellsText ['[', '\x7b', '\x7d', ']'] (.array [.object [] none] none) :=
    (Value.spells (.array [.object []]) ⟨trivial, trivial⟩).alone
  have known : SpellsKey ['"', 'o', 'u', 't', 'p', 'u', 't', '"'] (some "output") :=
    spellsKey_quote "output"
  have unknown : SpellsKey ['"', 'x', '"'] (some "x") := spellsKey_quote "x"
  have blank : Blank [' '] := by decide
  have scattered : SpellsText "\x7b \"x\":[\x7b\x7d],\"output\":[7] ,\"x\":null\x7d".toList
      (.object [(some "x", .array [.object [] none] none),
        (some "output", .array [.number (.integer 7)] none), (some "x", .null)] none) :=
    (Spells.object (.more (.intro blank (spellsString_quote "x") .nil) nested
      (.more known (.intro .nil seven blank) (.last unknown nothing)))).alone
  have twice : SpellsText "\x7b\"output\":null,\"output\":[7]\x7d".toList
      (.object [(some "output", .null), (some "output", .array [.number (.integer 7)] none)]
        none) :=
    (Spells.object (.more known nothing (.last known seven.alone))).alone
  refine ⟨(Kind.decode_spelled .fileStatResponse scattered).1 _ ?_,
    (Kind.decode_spelled .fileStatResponse twice).2 ?_⟩
  · have left : Presence.defaulted = .defaulted ∨ Presence.defaulted = .optional := .inl rfl
    refine .inl ⟨_, rfl, by simp, ?_, trivial⟩
    exact .inr ⟨_, rfl, rfl, left, rfl, left, rfl, left, rfl, left, rfl, left, rfl, left, rfl, left,
      rfl, left, rfl, left, rfl, rfl⟩
  · left
    decide
end StagedTransfer.Wire
