import Birch.Message

/-!
# The message serializer

`SerializeMessage` is written once and run with two sinks: one that measures,
and one that stores into a buffer.  Both are sinks in the sense of
`LawfulSink`, so both see the same text, `wire message`.
-/

namespace Birch

open Octet

/-- What `SerializeMessage` asks of a sink: the two overloads of `Append`. -/
class Sink (S : Type*) where
  append : S → Text → S
  push : S → Octet → S

/-- A sink that cannot tell in how many pieces a text was appended. -/
class LawfulSink (S : Type*) [Sink S] : Prop where
  append_nil (sink : S) : Sink.append sink [] = sink
  append_append (sink : S) (first second : Text) :
    Sink.append (Sink.append sink first) second =
      Sink.append sink (first ++ second)
  push_eq (sink : S) (c : Octet) : Sink.push sink c = Sink.append sink [c]

/-- Tallies how many octets a message would occupy. -/
structure MeasuringSink where
  size : Nat

instance : Sink MeasuringSink where
  append sink text := ⟨sink.size + text.length⟩
  push sink _ := ⟨sink.size + 1⟩

/-- Stores into a span, from its beginning. -/
structure BufferSink where
  buffer : Text
  offset : Nat
  offset_le : offset ≤ buffer.length

/-- A `memcpy` of the text to the offset, where the span has room for it. -/
def BufferSink.store (sink : BufferSink) (text : Text) : Option BufferSink :=
  if room : sink.offset + text.length ≤ sink.buffer.length then
    some
      { buffer := sink.buffer.take sink.offset ++ text ++
          sink.buffer.drop (sink.offset + text.length)
        offset := sink.offset + text.length
        offset_le := by
          have := sink.offset_le
          simp only [List.length_append, List.length_take, List.length_drop]
          omega }
  else
    none

/-- `none` is a sink that has been made to store beyond its span. -/
instance : Sink (Option BufferSink) where
  append sink text := sink.bind fun sink => sink.store text
  push sink c := sink.bind fun sink => sink.store [c]

def requiresTrailingMarker (param : Text) : Bool :=
  param.isEmpty || param.head? == some colon || param.contains space

section Serialize

variable {S : Type*} [Sink S]

/-- The loop over the tags, with its flag `first`. -/
def serializeTags (sink : S) : Bool → List (Text × Text) → S
  | _, [] => sink
  | first, (key, value) :: tags =>
      let sink := if first then sink else Sink.push sink semicolon
      let sink := Sink.append sink key
      let sink := if value.isEmpty then sink
        else Sink.append (Sink.push sink equals) value
      serializeTags sink false tags

/-- The loop over the parameters from the index `i` on. -/
def serializeParams (sink : S) (size : Nat) : Nat → List Text → S
  | _, [] => sink
  | i, param :: params =>
      let sink := Sink.push sink space
      let isLast := i + 1 == size
      let sink := if isLast && requiresTrailingMarker param
        then Sink.push sink colon else sink
      serializeParams (Sink.append sink param) size (i + 1) params

def serializeMessage (sink : S) (message : Message) : S :=
  let tags := message.tags.entries
  let sink := if tags.isEmpty then sink
    else Sink.push (serializeTags (Sink.push sink at_) true tags) space
  let sink := if message.prefixText.isEmpty then sink
    else Sink.push
      (Sink.append (Sink.push sink colon) message.prefixText) space
  let sink := Sink.append sink message.command
  let sink := serializeParams sink message.params.length 0 message.params
  Sink.push (Sink.push sink cr) lf

end Serialize

def computeRequiredSpace (message : Message) : Nat :=
  (serializeMessage (⟨0⟩ : MeasuringSink) message).size

/-- The buffer after the call and the size that is returned, or nothing where a
store goes beyond the buffer. -/
def writeToBuffer (buffer : Text) (message : Message) : Option (Text × Nat) :=
  (serializeMessage (some ⟨buffer, 0, Nat.zero_le _⟩ : Option BufferSink)
    message).map fun sink => (sink.buffer, sink.offset)

/-! ## The text of a message -/

def tagText (tag : Text × Text) : Text :=
  if tag.2.isEmpty then tag.1 else tag.1 ++ equals :: tag.2

def tagsText : List (Text × Text) → Text
  | [] => []
  | [tag] => tagText tag
  | tag :: tags => tagText tag ++ semicolon :: tagsText tags

def lastParamText (param : Text) : Text :=
  if requiresTrailingMarker param then colon :: param else param

def paramsText : List Text → Text
  | [] => []
  | [param] => space :: lastParamText param
  | param :: params => space :: param ++ paramsText params

def tagSection (tags : List (Text × Text)) : Text :=
  if tags.isEmpty then [] else at_ :: tagsText tags ++ [space]

def prefixSection (text : Text) : Text :=
  if text.isEmpty then [] else colon :: text ++ [space]

/-- The text of a message up to its end of line. -/
def wireBody (message : Message) : Text :=
  tagSection message.tags.entries ++ prefixSection message.prefixText ++
    message.command ++ paramsText message.params

def wire (message : Message) : Text :=
  wireBody message ++ [cr, lf]

/-! ## Every sink is given the text of the message -/

section Lawful

variable {S : Type*} [Sink S] [LawfulSink S]

theorem serializeTags_later (sink : S) (tags : List (Text × Text)) :
    serializeTags sink false tags =
      Sink.append sink (tags.flatMap fun tag => semicolon :: tagText tag) := by
  induction tags generalizing sink with
  | nil => simp [serializeTags, LawfulSink.append_nil]
  | cons tag tags ih =>
      rcases tag with ⟨key, value⟩
      simp only [serializeTags, Bool.false_eq_true, if_false,
        LawfulSink.push_eq, LawfulSink.append_append, ih]
      by_cases valueEmpty : value = [] <;>
        simp [tagText, valueEmpty, LawfulSink.append_append]

theorem tagsText_cons (tag : Text × Text) (tags : List (Text × Text)) :
    tagsText (tag :: tags) =
      tagText tag ++ tags.flatMap fun tag => semicolon :: tagText tag := by
  induction tags generalizing tag with
  | nil => simp [tagsText]
  | cons next tags ih => simp [tagsText, ih]

theorem serializeTags_first (sink : S) (tags : List (Text × Text)) :
    serializeTags sink true tags = Sink.append sink (tagsText tags) := by
  cases tags with
  | nil => simp [serializeTags, tagsText, LawfulSink.append_nil]
  | cons tag tags =>
      rcases tag with ⟨key, value⟩
      simp only [serializeTags, if_true, LawfulSink.push_eq,
        LawfulSink.append_append, tagsText_cons, serializeTags_later]
      by_cases valueEmpty : value = [] <;>
        simp [tagText, valueEmpty, LawfulSink.append_append]

theorem serializeParams_eq (sink : S) (i : Nat) (params : List Text) :
    serializeParams sink (i + params.length) i params =
      Sink.append sink (paramsText params) := by
  induction params generalizing sink i with
  | nil => simp [serializeParams, paramsText, LawfulSink.append_nil]
  | cons param params ih =>
      have size : i + (param :: params).length = i + 1 + params.length := by
        simp only [List.length_cons]
        omega
      simp only [serializeParams, LawfulSink.push_eq,
        LawfulSink.append_append, size, ih]
      cases params with
      | nil =>
          by_cases marked : requiresTrailingMarker param = true
          · simp [marked, paramsText, lastParamText, LawfulSink.append_append]
          · simp [marked, paramsText, lastParamText, LawfulSink.append_append]
      | cons next params => simp [paramsText, LawfulSink.append_append]

/-- The single source of truth for the wire format. -/
theorem serializeMessage_eq (sink : S) (message : Message) :
    serializeMessage sink message = Sink.append sink (wire message) := by
  have params (sink : S) :
      serializeParams sink message.params.length 0 message.params =
        Sink.append sink (paramsText message.params) := by
    rw [← serializeParams_eq sink 0 message.params, Nat.zero_add]
  simp only [serializeMessage, params]
  by_cases noTags : message.tags.entries = [] <;>
    by_cases noPrefix : message.prefixText = [] <;>
    simp [noTags, noPrefix, serializeTags_first, LawfulSink.push_eq,
      LawfulSink.append_append, wire, wireBody, tagSection, prefixSection]

end Lawful

/-! ## The two sinks -/

instance : LawfulSink MeasuringSink where
  append_nil _ := rfl
  append_append sink first second := by
    simp [Sink.append, Nat.add_assoc]
  push_eq _ _ := rfl

theorem computeRequiredSpace_eq (message : Message) :
    computeRequiredSpace message = (wire message).length := by
  rw [computeRequiredSpace, serializeMessage_eq]
  simp [Sink.append]

theorem BufferSink.store_nil (sink : BufferSink) :
    sink.store [] = some sink := by
  have room := sink.offset_le
  simp [BufferSink.store, room]

theorem BufferSink.store_store (sink : BufferSink) (first second : Text) :
    (sink.store first).bind (fun sink => sink.store second) =
      sink.store (first ++ second) := by
  rcases sink with ⟨buffer, offset, within⟩
  by_cases firstRoom : offset + first.length ≤ buffer.length
  · have storedLength :
        (buffer.take offset ++ first).length = offset + first.length := by
      simp [within]
    have unchanged :
        (buffer.take offset ++ first ++
          buffer.drop (offset + first.length)).length = buffer.length := by
      rw [List.length_append, storedLength, List.length_drop]
      omega
    have taken :
        (buffer.take offset ++ first ++
          buffer.drop (offset + first.length)).take (offset + first.length) =
        buffer.take offset ++ first :=
      List.take_left' storedLength
    have dropped :
        (buffer.take offset ++ first ++ buffer.drop (offset + first.length)).drop
            (offset + first.length + second.length) =
          buffer.drop (offset + first.length + second.length) := by
      rw [← List.drop_drop, List.drop_left' storedLength, List.drop_drop]
    by_cases secondRoom :
        offset + first.length + second.length ≤ buffer.length
    · simp only [BufferSink.store, firstRoom, dite_true, Option.bind_some,
        unchanged, secondRoom, taken, dropped, List.length_append,
        ← Nat.add_assoc]
      simp only [List.append_assoc]
    · simp only [BufferSink.store, firstRoom, dite_true, Option.bind_some,
        unchanged, secondRoom, dite_false, List.length_append,
        ← Nat.add_assoc]
  · have noRoom : ¬ offset + (first ++ second).length ≤ buffer.length := by
      rw [List.length_append]
      omega
    simp only [BufferSink.store, firstRoom, noRoom, dite_false, Option.bind_none]

instance : LawfulSink (Option BufferSink) where
  append_nil sink := by
    cases sink with
    | none => rfl
    | some sink => exact sink.store_nil
  append_append sink first second := by
    cases sink with
    | none => rfl
    | some sink => exact sink.store_store first second
  push_eq _ _ := rfl

/-- A message is written in full to the beginning of a buffer that has room for
it, and otherwise beyond the buffer. -/
theorem writeToBuffer_eq (buffer : Text) (message : Message) :
    writeToBuffer buffer message =
      if computeRequiredSpace message ≤ buffer.length then
        some (wire message ++ buffer.drop (computeRequiredSpace message),
          computeRequiredSpace message)
      else
        none := by
  rw [writeToBuffer, serializeMessage_eq, computeRequiredSpace_eq]
  by_cases room : (wire message).length ≤ buffer.length <;>
    simp [Sink.append, BufferSink.store, room]

/-- Writing agrees with measuring: in every buffer with room for it, the same
octets are stored below the measured size, and nothing is changed above. -/
theorem writeToBuffer_measured (message : Message) :
    ∃ stored : Text, stored.length = computeRequiredSpace message ∧
      ∀ buffer : Text, computeRequiredSpace message ≤ buffer.length →
        ∃ written,
          writeToBuffer buffer message =
            some (written, computeRequiredSpace message) ∧
          written.length = buffer.length ∧
          (∀ i < computeRequiredSpace message, written[i]? = stored[i]?) ∧
          ∀ i, computeRequiredSpace message ≤ i → written[i]? = buffer[i]? := by
  have measured := computeRequiredSpace_eq message
  refine ⟨wire message, measured.symm, fun buffer room => ?_⟩
  refine ⟨wire message ++ buffer.drop (computeRequiredSpace message), ?_, ?_, ?_, ?_⟩
  · rw [writeToBuffer_eq, if_pos room]
  · rw [List.length_append, List.length_drop, ← measured]
    omega
  · intro i below
    rw [List.getElem?_append_left (measured ▸ below)]
  · intro i above
    rw [List.getElem?_append_right (measured ▸ above), List.getElem?_drop,
      ← measured, Nat.add_sub_cancel' above]

end Birch
