import Mongoose.Codec.Stream

/-!
# Mongoose.Codec.Frames

Frames one after the other, and the beginning of one more.

`deframe_frames` reads a stream that was cut off anywhere: every whole frame is found,
nothing is slid over, and the broken one is left.
-/

namespace Mongoose

open Scan

/-- The beginning of a frame waits for the rest of it. -/
theorem frameVerdict_take {b wire : Bytes} (h : encode b = .ok wire) {n : Nat} (hn : n < wire.length) :
    frameVerdict (wire.take n) = .wait := by
  have hlen : (wire.take n).length = n := by
    rw [List.length_take]
    omega
  by_cases h4 : n < 4
  · exact frameVerdict_of_short (by omega)
  · have hv := frameVerdict_encode [] h
    rw [List.append_nil] at hv
    obtain ⟨hh, -, hwire, -⟩ := of_frameVerdict_item hv
    have h4' : 4 ≤ (wire.take n).length := by omega
    have hsplit := List.take_append_drop n wire
    have hhead : IsHeader (wire.take n) := by
      rw [← isHeader_append (wire.drop n) h4', hsplit]
      exact hh
    have h0 : le16At (wire.take n) 0 = le16At wire 0 := by
      rw [← le16At_append (wire.drop n) (by omega), hsplit]
    exact frameVerdict_of_short_body hhead (by rw [h0]; omega)

/-- The frames of some bodies. -/
def frames : List Bytes → Except Exception Bytes
  | [] => pure []
  | b :: bs => do
      let wire ← encode b
      let rest ← frames bs
      pure (wire ++ rest)

/-- Whole frames are cut off, whatever follows them. -/
theorem scan_frames {bs : List Bytes} {s : Bytes} (h : frames bs = .ok s) (t : Bytes) :
    items (frameScanner.scan (s ++ t)).1 = bs ++ items (frameScanner.scan t).1 ∧
      skips (frameScanner.scan (s ++ t)).1 = skips (frameScanner.scan t).1 ∧
      (frameScanner.scan (s ++ t)).2 = (frameScanner.scan t).2 := by
  induction bs generalizing s with
  | nil =>
      cases h
      exact ⟨rfl, rfl, rfl⟩
  | cons b bs ih =>
      obtain ⟨wire, hb, h⟩ := bind_ok h
      obtain ⟨rest, hrest, h⟩ := bind_ok h
      cases h
      have hv := frameVerdict_encode (rest ++ t) hb
      rw [← List.append_assoc] at hv
      rw [Scanner.scan_of_item (S := frameScanner) hv, List.append_assoc, List.drop_left]
      obtain ⟨hi, hs, hr⟩ := ih hrest
      exact ⟨by rw [items_item, hi]; rfl, by rw [skips_item, hs], hr⟩

/-- A stream that was cut off is read up to the broken frame. -/
theorem deframe_frames {bs : List Bytes} {s tail : Bytes} (h : frames bs = .ok s)
    (ht : frameVerdict tail = .wait) : Probe.deframe (s ++ tail) = (bs, 0, tail) := by
  obtain ⟨hi, hs, hr⟩ := scan_frames h tail
  have hw := Scanner.scan_of_wait (S := frameScanner) ht
  rw [Probe.deframe_eq_scan, hi, hs, hr, hw]
  simp

end Mongoose
