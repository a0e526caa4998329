import Mathlib.Data.List.Basic

/-!
# Scan

Greedy left-to-right scanning of a symbol stream, whole or in chunks.

A `Scanner` looks at the front of its buffer and says one of three things: it
needs more input, the first symbol starts nothing, or the first `n` symbols
are an item.  `scan` applies it until it asks for more.  The one law that
makes scanning incremental is *stability*: a verdict, once given, survives
any extension of the buffer.  From it:

* `scan_append` — scanning can stop anywhere and resume on what was left;
* `feedAll_eq_scan` — any way of cutting the stream gives the whole-stream scan;
* `flatMap_symbols_scan` — the pieces and the rest are the stream, in order.
-/

namespace Scan

/-- What a scanner says of the front of its buffer. -/
inductive Verdict (β : Type*)
  | wait
  | slide
  | item (n : Nat) (b : β)

/-- A stable look-ahead: `look` never takes more than it was shown, always
takes something, and never changes its mind when more input arrives. -/
structure Scanner (α β : Type*) where
  look : List α → Verdict β
  ne_nil_of_slide : look xs = .slide → xs ≠ []
  pos_of_item : look xs = .item n b → 0 < n
  le_length_of_item : look xs = .item n b → n ≤ xs.length
  stable : look xs ≠ .wait → look (xs ++ ys) = look xs

/-- One piece of a scanned stream: a symbol that was slid over, or the symbols
of an item with what they stand for. -/
inductive Piece (α β : Type*)
  | skipped (a : α)
  | item (symbols : List α) (b : β)

namespace Piece

variable {α β : Type*}

/-- The symbols a piece was cut from. -/
def symbols : Piece α β → List α
  | skipped a => [a]
  | item symbols _ => symbols

/-- The item of a piece, if it is one. -/
def item? : Piece α β → Option β
  | skipped _ => none
  | item _ b => some b

/-- Whether a piece is a skipped symbol. -/
def isSkipped : Piece α β → Bool
  | skipped _ => true
  | item _ _ => false

end Piece

variable {α β : Type*}

/-- The items of a list of pieces, in order. -/
def items (ps : List (Piece α β)) : List β := ps.filterMap Piece.item?

/-- How many pieces are skipped symbols. -/
def skips (ps : List (Piece α β)) : Nat := ps.countP Piece.isSkipped

/-- No pieces, no items. -/
@[simp] theorem items_nil : items ([] : List (Piece α β)) = [] := rfl

/-- A skipped element is no item. -/
@[simp] theorem items_skipped (a : α) (ps : List (Piece α β)) :
    items (.skipped a :: ps) = items ps := rfl

/-- An item piece carries one. -/
@[simp] theorem items_item (xs : List α) (b : β) (ps : List (Piece α β)) :
    items (.item xs b :: ps) = b :: items ps := rfl

/-- Items come in the order of their pieces. -/
@[simp] theorem items_append (ps qs : List (Piece α β)) :
    items (ps ++ qs) = items ps ++ items qs := by
  simp [items]

/-- No pieces, nothing skipped. -/
@[simp] theorem skips_nil : skips ([] : List (Piece α β)) = 0 := rfl

/-- A skipped element counts once. -/
@[simp] theorem skips_skipped (a : α) (ps : List (Piece α β)) :
    skips (.skipped a :: ps) = skips ps + 1 :=
  List.countP_cons_of_pos rfl

/-- An item skips nothing. -/
@[simp] theorem skips_item (xs : List α) (b : β) (ps : List (Piece α β)) :
    skips (.item xs b :: ps) = skips ps :=
  List.countP_cons_of_neg (by simp [Piece.isSkipped])

/-- Skipped elements add up. -/
@[simp] theorem skips_append (ps qs : List (Piece α β)) :
    skips (ps ++ qs) = skips ps + skips qs := by
  simp [skips]

/-- An item is in the list exactly when a piece carries it. -/
theorem mem_items {ps : List (Piece α β)} {b : β} :
    b ∈ items ps ↔ ∃ xs, Piece.item xs b ∈ ps := by
  constructor
  · intro h
    obtain ⟨p, hp, hb⟩ := List.mem_filterMap.mp h
    cases p with
    | skipped a => simp [Piece.item?] at hb
    | item xs c =>
        obtain rfl : c = b := by simpa [Piece.item?] using hb
        exact ⟨xs, hp⟩
  · rintro ⟨xs, h⟩
    exact List.mem_filterMap.mpr ⟨_, h, rfl⟩

namespace Scanner

variable (S : Scanner α β)

/-- Scan a buffer: the pieces recognised, and what is left waiting. -/
def scan (xs : List α) : List (Piece α β) × List α :=
  match h : S.look xs with
  | .wait => ([], xs)
  | .slide =>
      let r := scan xs.tail
      (.skipped (xs.head (S.ne_nil_of_slide h)) :: r.1, r.2)
  | .item n b =>
      let r := scan (xs.drop n)
      (.item (xs.take n) b :: r.1, r.2)
termination_by xs.length
decreasing_by
  · have := List.length_pos_iff.mpr (S.ne_nil_of_slide h)
    rw [List.length_tail]; omega
  · have := S.pos_of_item h
    have := S.le_length_of_item h
    rw [List.length_drop]; omega

variable {S}

/-! ## one step of a scan -/

/-- A scanner that waits leaves the input. -/
theorem scan_of_wait {xs : List α} (h : S.look xs = .wait) : S.scan xs = ([], xs) := by
  rw [scan]
  split <;> simp_all

/-- A scanner that slides skips one element. -/
theorem scan_of_slide {x : α} {xs : List α} (h : S.look (x :: xs) = .slide) :
    S.scan (x :: xs) = (.skipped x :: (S.scan xs).1, (S.scan xs).2) := by
  rw [scan]
  split <;> simp_all

/-- A scanner that finds an item takes it off the front. -/
theorem scan_of_item {xs : List α} {n : Nat} {b : β} (h : S.look xs = .item n b) :
    S.scan xs = (.item (xs.take n) b :: (S.scan (xs.drop n)).1, (S.scan (xs.drop n)).2) := by
  rw [scan]
  split <;> simp_all

/-! ## what a scan leaves and what it cuts -/

/-- A scan stops only when the scanner asks for more. -/
theorem look_rest_scan (xs : List α) : S.look (S.scan xs).2 = .wait := by
  induction xs using scan.induct S with
  | case1 xs h => rw [scan_of_wait h]; exact h
  | case2 xs h ih =>
      obtain ⟨x, xs, rfl⟩ := List.exists_cons_of_ne_nil (S.ne_nil_of_slide h)
      rw [scan_of_slide h]; exact ih
  | case3 xs n b h ih => rw [scan_of_item h]; exact ih

/-- **The pieces of a scan and its rest are the stream, in order.** -/
theorem flatMap_symbols_scan (xs : List α) :
    (S.scan xs).1.flatMap Piece.symbols ++ (S.scan xs).2 = xs := by
  induction xs using scan.induct S with
  | case1 xs h => simp [scan_of_wait h]
  | case2 xs h ih =>
      obtain ⟨x, xs, rfl⟩ := List.exists_cons_of_ne_nil (S.ne_nil_of_slide h)
      rw [scan_of_slide h]
      simpa [Piece.symbols] using ih
  | case3 xs n b h ih =>
      rw [scan_of_item h, List.flatMap_cons, Piece.symbols, List.append_assoc, ih,
        List.take_append_drop]

/-- Every item piece was cut where the scanner recognised that item. -/
theorem look_of_mem_scan {xs ys : List α} {b : β} (h : Piece.item ys b ∈ (S.scan xs).1) :
    ∃ zs n, S.look zs = .item n b ∧ ys = zs.take n := by
  induction xs using scan.induct S with
  | case1 xs hw => simp [scan_of_wait hw] at h
  | case2 xs hs ih =>
      obtain ⟨x, xs, rfl⟩ := List.exists_cons_of_ne_nil (S.ne_nil_of_slide hs)
      rw [scan_of_slide hs] at h
      exact ih (by simpa using h)
  | case3 xs n c hi ih =>
      rw [scan_of_item hi, List.mem_cons] at h
      rcases h with he | ht
      · obtain ⟨rfl, rfl⟩ : ys = xs.take n ∧ b = c := by simpa using he
        exact ⟨xs, n, hi, rfl⟩
      · exact ih ht

/-- The rest of a scan is a suffix of the stream. -/
theorem rest_scan_suffix (xs : List α) : (S.scan xs).2 <:+ xs :=
  ⟨_, flatMap_symbols_scan xs⟩

/-! ## resuming -/

/-- **Scanning can stop anywhere**: the scan of a longer stream is the scan of
its front, resumed on what the front left. -/
theorem scan_append (xs ys : List α) :
    S.scan (xs ++ ys) =
      ((S.scan xs).1 ++ (S.scan ((S.scan xs).2 ++ ys)).1, (S.scan ((S.scan xs).2 ++ ys)).2) := by
  induction xs using scan.induct S with
  | case1 xs h => simp [scan_of_wait h]
  | case2 xs h ih =>
      obtain ⟨x, xs, rfl⟩ := List.exists_cons_of_ne_nil (S.ne_nil_of_slide h)
      have hs : S.look (x :: (xs ++ ys)) = .slide := by
        rw [← List.cons_append, S.stable (by simp [h]), h]
      rw [List.cons_append, scan_of_slide hs, scan_of_slide h]
      simp only [List.tail_cons] at ih
      rw [ih]
      rfl
  | case3 xs n b h ih =>
      have hi : S.look (xs ++ ys) = .item n b := by
        rw [S.stable (by simp [h]), h]
      have hn := S.le_length_of_item h
      rw [scan_of_item hi, scan_of_item h, List.take_append_of_le_length hn,
        List.drop_append_of_le_length hn, ih]
      rfl

/-- Feed chunks one after the other to a buffer, collecting the pieces. -/
def feedAll (S : Scanner α β) (buffer : List α) : List (List α) → List (Piece α β) × List α
  | [] => ([], buffer)
  | c :: cs =>
      let r := S.scan (buffer ++ c)
      let t := feedAll S r.2 cs
      (r.1 ++ t.1, t.2)

/-- **Chunking is immaterial**: feeding a waiting buffer any chunks gives the
scan of the buffer followed by all of them. -/
theorem feedAll_eq_scan {buffer : List α} (h : S.look buffer = .wait) (cs : List (List α)) :
    feedAll S buffer cs = S.scan (buffer ++ cs.flatten) := by
  induction cs generalizing buffer with
  | nil => simp [feedAll, scan_of_wait h]
  | cons c cs ih =>
      rw [feedAll, ih (look_rest_scan _), List.flatten_cons, ← List.append_assoc,
        scan_append (buffer ++ c)]

end Scanner

end Scan
