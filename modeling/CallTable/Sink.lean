/-!
# Sinks

A sink takes text as bytes of UTF-8, all of it or up to a limit. A text that does not fit is cut
where the room ends, and it is the sink that says why it takes no more.
-/

namespace CallTable

/-- A place to write to: what was written so far, how many bytes it still takes (any number if
there is no limit), and the reason it gives when they are used up. -/
structure Sink where
  written : ByteArray
  room : Option Nat
  refusal : String

namespace Sink

/-- An empty sink without a limit. -/
def unlimited : Sink :=
  ⟨ByteArray.empty, none, ""⟩

/-- An empty sink that takes so many bytes and then refuses with the given reason. -/
def limited (room : Nat) (refusal : String) : Sink :=
  ⟨ByteArray.empty, some room, refusal⟩

/-- The text fits into the room that is left. -/
def fits (sink : Sink) (text : String) : Bool :=
  sink.room.all (text.utf8ByteSize ≤ ·)

/-- Writes as much of the text as fits. -/
def write (sink : Sink) (text : String) : Sink :=
  match sink.room with
  | none => { sink with written := sink.written ++ text.toUTF8 }
  | some room =>
    { sink with
      written := sink.written ++ text.toUTF8.extract 0 room
      room := some (room - text.utf8ByteSize) }

/-- Writes texts one after the other until one of them does not fit, and says whether all of them
did. -/
def writeAll (sink : Sink) : List String → Bool × Sink
  | [] => (true, sink)
  | text :: texts =>
    if sink.fits text then (sink.write text).writeAll texts else (false, sink.write text)

/-- A text that fits is written whole. -/
theorem written_write_of_fits {sink : Sink} {text : String} (h : sink.fits text = true) :
    (sink.write text).written = sink.written ++ text.toUTF8 := by
  cases hroom : sink.room with
  | none => simp [write, hroom]
  | some room =>
    have hsize : text.utf8ByteSize ≤ room := by simpa [fits, hroom] using h
    have hwhole : text.toByteArray.extract 0 room = text.toByteArray := by
      simp [ByteArray.ext_iff, Array.extract_eq_self_of_le hsize]
    simp [write, hroom, hwhole]

/-- Writing keeps the reason for which a sink refuses. -/
@[simp] theorem refusal_write (sink : Sink) (text : String) :
    (sink.write text).refusal = sink.refusal := by
  unfold write
  split <;> rfl

/-- The empty text always fits. -/
theorem fits_empty (sink : Sink) : sink.fits "" = true := by
  cases hroom : sink.room <;> simp [fits, hroom]

/-- Writing the empty text changes nothing. -/
theorem write_empty (sink : Sink) : sink.write "" = sink := by
  obtain ⟨written, room, refusal⟩ := sink
  cases room with
  | none => simp [write]
  | some room =>
    have hnothing : ByteArray.empty.extract 0 room = ByteArray.empty :=
      ByteArray.extract_eq_empty_iff.2 (Nat.min_le_right _ _)
    simp [write, hnothing]

/-- Two texts fit one after the other exactly if they fit as one text. -/
theorem fits_append (sink : Sink) (first second : String) :
    sink.fits (first ++ second) = (sink.fits first && (sink.write first).fits second) := by
  cases hroom : sink.room with
  | none => simp [fits, write, hroom]
  | some room =>
    simp only [fits, write, hroom, Option.all_some, String.utf8ByteSize_append, ← Bool.decide_and]
    exact decide_eq_decide.2 (by omega)

/-- Where the room ends does not depend on how a text is cut into two. -/
theorem write_write (sink : Sink) (first second : String) :
    (sink.write first).write second = sink.write (first ++ second) := by
  cases hroom : sink.room with
  | none => simp [write, hroom, ByteArray.append_assoc]
  | some room =>
    simp only [write, hroom, String.utf8ByteSize_append, Nat.sub_add_eq,
      String.toUTF8_eq_toByteArray, String.toByteArray_append, ByteArray.extract_append,
      Nat.zero_sub, ByteArray.append_assoc]
    rfl

/-- A sink that had to cut a text takes nothing more. -/
theorem write_write_of_not_fits {sink : Sink} {first : String} (h : sink.fits first = false)
    (second : String) : (sink.write first).write second = sink.write first := by
  cases hroom : sink.room with
  | none => simp [fits, hroom] at h
  | some room =>
    have hfull : room - first.utf8ByteSize = 0 := by
      simp only [fits, hroom, Option.all_some, decide_eq_false_iff_not] at h
      omega
    simp [write, hroom, hfull]

/-- Writing texts until one is refused writes as much of their concatenation as fits, and all of
them are written exactly if the concatenation fits. -/
theorem writeAll_eq (sink : Sink) (texts : List String) :
    sink.writeAll texts = (sink.fits (String.join texts), sink.write (String.join texts)) := by
  induction texts generalizing sink with
  | nil => rw [writeAll, String.join_nil, fits_empty, write_empty]
  | cons text texts ih =>
    rw [writeAll, String.join_cons, fits_append, ← write_write]
    cases hfits : sink.fits text with
    | true => rw [if_pos rfl, ih, Bool.true_and]
    | false => rw [if_neg Bool.false_ne_true, Bool.false_and, write_write_of_not_fits hfits]

end Sink

end CallTable
