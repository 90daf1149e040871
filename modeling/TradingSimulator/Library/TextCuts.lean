import Mathlib.Data.List.Chain
import Mathlib.Data.List.DropRight
import Mathlib.Data.List.Infix

/-!
# Cutting a text

A text is cut at its gaps: the runs of spaces that begin right behind a mark. `IsCut` says what the
pieces are, and `split` finds them (`isCut_iff`). Pieces that could come from a text come back when
they are joined by a space and cut again (`split_intercalate`), also when some of them are left out
in between (`IsProper.sublist`).
-/

namespace TextCuts

variable {α : Type*} (mark space : α → Bool)

/-- The pieces of the rest of a text: `some piece` has been read of the first one, or none behind a
gap that may still go on. -/
def pieces : Option (List α) → List α → List (List α)
  | some piece, [] => [piece]
  | none, [] => [[]]
  | some piece, x :: xs =>
    if space x && piece.getLast?.any mark then piece :: pieces none xs
    else pieces (some (piece ++ [x])) xs
  | none, x :: xs => if space x then pieces none xs else pieces (some [x]) xs

/-- The pieces of a text, without the gaps. -/
def split (xs : List α) : List (List α) := pieces mark space (some []) xs

/-- A text without the spaces at its ends. -/
def strip (xs : List α) : List α := (xs.dropWhile space).rdropWhile space

/-- No gap begins in the text. -/
def IsWhole (xs : List α) : Prop := xs.IsChain fun x y => mark x → ¬ space y

/-- There is no space at either end. -/
structure IsTrimmed (xs : List α) : Prop where
  head : ∀ x ∈ xs.head?, ¬ space x
  last : ∀ x ∈ xs.getLast?, ¬ space x

/-- A text and its pieces. -/
inductive IsCut : List α → List (List α) → Prop
  | last {piece : List α} (hwhole : IsWhole mark space piece) : IsCut piece [piece]
  | cut {piece gap rest : List α} {ps : List (List α)} (hwhole : IsWhole mark space piece)
      (hmark : piece.getLast?.any mark) (hne : gap ≠ []) (hgap : ∀ x ∈ gap, space x)
      (hhead : ∀ x ∈ rest.head?, ¬ space x) (hrest : IsCut rest ps) :
      IsCut (piece ++ (gap ++ rest)) (piece :: ps)

variable {mark space}

/-! ### Cutting -/

/-- A piece stays whole when what follows is not a space behind an end mark. -/
theorem isWhole_concat {piece : List α} (h : IsWhole mark space piece) {x : α}
    (hx : ¬ (space x && piece.getLast?.any mark)) : IsWhole mark space (piece ++ [x]) := by
  rw [IsWhole, List.isChain_append]
  refine ⟨h, .singleton x, ?_⟩
  intro y hy x' hx' hmark
  obtain rfl : x = x' := by simpa using hx'
  rw [Option.mem_def] at hy
  intro hspace
  exact hx (by rw [hy, hspace, Option.any_some, hmark, Bool.and_self])

/-- What has been read of a piece and the rest of the text are cut as one text, and a gap is as long
as it can be. -/
theorem isCut_pieces (xs : List α) :
    (∀ piece, IsWhole mark space piece →
      IsCut mark space (piece ++ xs) (pieces mark space (some piece) xs)) ∧
    ∃ gap rest, xs = gap ++ rest ∧ (∀ x ∈ gap, space x) ∧ (∀ x ∈ rest.head?, ¬ space x) ∧
      IsCut mark space rest (pieces mark space none xs) := by
  induction xs with
  | nil =>
    refine ⟨fun piece hwhole => ?_, [], [], rfl, by simp, by simp, .last .nil⟩
    rw [List.append_nil]
    exact .last hwhole
  | cons x xs ih =>
    obtain ⟨hsome, gap, rest, hxs, hgap, hhead, hnone⟩ := ih
    constructor
    · intro piece hwhole
      rw [pieces]
      split_ifs with hcut
      · -- a gap begins here and goes on as far as it can
        rw [Bool.and_eq_true] at hcut
        have hcons : piece ++ x :: xs = piece ++ (x :: gap ++ rest) := by rw [hxs, List.cons_append]
        rw [hcons]
        exact .cut hwhole hcut.2 (List.cons_ne_nil _ _)
          (List.forall_mem_cons.mpr ⟨hcut.1, hgap⟩) hhead hnone
      · have hrest := hsome (piece ++ [x]) (isWhole_concat hwhole hcut)
        rwa [List.append_assoc, List.singleton_append] at hrest
    · rw [pieces]
      split_ifs with hspace
      · refine ⟨x :: gap, rest, by rw [hxs, List.cons_append], ?_, hhead, hnone⟩
        exact List.forall_mem_cons.mpr ⟨hspace, hgap⟩
      · -- the gap is over, and a piece begins
        refine ⟨[], x :: xs, rfl, by simp, by simpa using hspace, ?_⟩
        exact hsome [x] (.singleton x)

/-- Text in which no gap begins is read into the piece. -/
theorem pieces_append {piece xs : List α} (h : IsWhole mark space (piece ++ xs)) (rest : List α) :
    pieces mark space (some piece) (xs ++ rest) =
      pieces mark space (some (piece ++ xs)) rest := by
  induction xs generalizing piece with
  | nil => rw [List.nil_append, List.append_nil]
  | cons x xs ih =>
    have hx : ¬ (space x && piece.getLast?.any mark) := by
      rw [IsWhole, List.isChain_append] at h
      rw [Bool.and_eq_true, Option.any_eq_true]
      rintro ⟨hspace, y, hy, hmark⟩
      exact h.2.2 y hy x rfl hmark hspace
    have hassoc : piece ++ x :: xs = piece ++ [x] ++ xs := by simp
    rw [List.cons_append, pieces, if_neg hx, hassoc, ih (hassoc ▸ h)]

/-- Behind a gap a piece begins at the next letter. -/
theorem pieces_none {gap rest : List α} (hgap : ∀ x ∈ gap, space x)
    (hhead : ∀ x ∈ rest.head?, ¬ space x) :
    pieces mark space none (gap ++ rest) = split mark space rest := by
  induction gap with
  | nil =>
    cases rest with
    | nil => rfl
    | cons x rest => simp [split, pieces, hhead x rfl]
  | cons x gap ih =>
    rw [List.forall_mem_cons] at hgap
    rw [List.cons_append, pieces, if_pos hgap.1, ih hgap.2]

/-- A text has exactly the pieces that `split` finds. -/
theorem isCut_iff {xs : List α} {ps : List (List α)} :
    IsCut mark space xs ps ↔ split mark space xs = ps := by
  constructor
  · intro h
    induction h with
    | @last piece hwhole =>
      have hread : split mark space (piece ++ []) = [piece] := pieces_append hwhole []
      rwa [List.append_nil] at hread
    | @cut piece gap rest ps hwhole hmark hne hgap hhead _ ih =>
      obtain ⟨x, gap, rfl⟩ := List.exists_cons_of_ne_nil hne
      rw [List.forall_mem_cons] at hgap
      have hcut : (space x && piece.getLast?.any mark) = true := by
        rw [hgap.1, hmark, Bool.and_self]
      have hread : split mark space (piece ++ (x :: gap ++ rest)) =
          pieces mark space (some piece) (x :: gap ++ rest) := pieces_append hwhole _
      rw [hread, List.cons_append, pieces, if_pos hcut, pieces_none hgap.2 hhead, ih]
  · rintro rfl
    exact (isCut_pieces xs).1 [] .nil

/-! ### Stripping -/

/-- Nothing is left to strip at either end. -/
theorem isTrimmed_strip (xs : List α) : IsTrimmed space (strip space xs) := by
  refine ⟨fun x hx => ?_, fun x hx => ?_⟩
  · -- the first letter was the first one already when the spaces behind were dropped
    have hstrip : (strip space xs).head? = some x := hx
    obtain ⟨rest, hrest⟩ : strip space xs <+: xs.dropWhile space :=
      List.rdropWhile_prefix space _
    have hhead : (xs.dropWhile space).head? = some x := by
      rw [← hrest, List.head?_append, hstrip, Option.some_or]
    have hnot := List.head?_dropWhile_not space xs
    rw [hhead] at hnot
    simpa using hnot
  · have hne : strip space xs ≠ [] := by
      rintro hnil
      rw [hnil] at hx
      exact absurd hx (by simp)
    have hlast := List.rdropWhile_last_not space (xs.dropWhile space) hne
    rw [Option.mem_def, List.getLast?_eq_some_getLast hne, Option.some.injEq] at hx
    rwa [← hx]

/-- A trimmed text stays as it is. -/
theorem IsTrimmed.strip_eq {xs : List α} (h : IsTrimmed space xs) : strip space xs = xs := by
  have hhead : xs.dropWhile space = xs := by
    cases xs with
    | nil => rfl
    | cons x xs => exact List.dropWhile_cons_of_neg (h.head x rfl)
  rw [strip, hhead, List.rdropWhile_eq_self_iff]
  exact fun hne => h.last _ (List.getLast?_eq_some_getLast hne)

/-- A trimmed beginning is kept. -/
theorem exists_strip_append {xs : List α} (h : IsTrimmed space xs) (hne : xs ≠ [])
    (rest : List α) : ∃ rest', strip space (xs ++ rest) = xs ++ rest' := by
  obtain ⟨x, xs, rfl⟩ := List.exists_cons_of_ne_nil hne
  rw [strip, List.cons_append, List.dropWhile_cons_of_neg (h.head x rfl), ← List.cons_append]
  induction rest using List.reverseRecOn with
  | nil =>
    refine ⟨[], ?_⟩
    rw [List.append_nil, List.rdropWhile_eq_self_iff]
    exact fun hne => h.last _ (List.getLast?_eq_some_getLast hne)
  | append_singleton rest y ih =>
    rw [← List.append_assoc]
    by_cases hy : space y
    · rwa [List.rdropWhile_concat_pos _ _ _ hy]
    · exact ⟨rest ++ [y], by rw [List.rdropWhile_concat_neg _ _ _ hy, List.append_assoc]⟩

/-- What has been read of a piece begins one of the pieces. -/
theorem exists_prefix_mem_pieces (piece xs : List α) :
    ∃ p ∈ pieces mark space (some piece) xs, piece <+: p := by
  induction xs generalizing piece with
  | nil => exact ⟨piece, List.mem_singleton_self piece, List.prefix_rfl⟩
  | cons x xs ih =>
    rw [pieces]
    split_ifs
    · exact ⟨piece, List.mem_cons_self, List.prefix_rfl⟩
    · obtain ⟨p, hp, hprefix⟩ := ih (piece ++ [x])
      exact ⟨p, hp, (List.prefix_append piece [x]).trans hprefix⟩

/-! ### Joining -/

variable (mark space) in
/-- Pieces that a text may have, some of them left out. -/
structure IsProper (ps : List (List α)) : Prop where
  ne_nil : ∀ p ∈ ps, p ≠ []
  trimmed : ∀ p ∈ ps, IsTrimmed space p
  whole : ∀ p ∈ ps, IsWhole mark space p
  /-- All but the last one end in a mark. -/
  closed : ps.Pairwise fun p _ => p.getLast?.any mark

/-- Some of the pieces are proper as well. -/
theorem IsProper.sublist {ps qs : List (List α)} (h : IsProper mark space ps)
    (hsub : qs.Sublist ps) : IsProper mark space qs where
  ne_nil p hp := h.ne_nil p (hsub.subset hp)
  trimmed p hp := h.trimmed p (hsub.subset hp)
  whole p hp := h.whole p (hsub.subset hp)
  closed := h.closed.sublist hsub

/-- The pieces of a trimmed text are proper. -/
theorem IsCut.isProper (hmarks : ∀ x, mark x → ¬ space x) {xs : List α} {ps : List (List α)}
    (h : IsCut mark space xs ps) (htrimmed : IsTrimmed space xs) (hne : xs ≠ []) :
    IsProper mark space ps := by
  induction h with
  | last hwhole => constructor <;> simp [hne, htrimmed, hwhole]
  | @cut piece gap rest ps hwhole hmark hgap hspace hhead _ ih =>
    -- a gap is followed by another piece, since the text does not end in a space
    have hrest : rest ≠ [] := by
      rintro rfl
      rw [List.append_nil] at htrimmed
      refine htrimmed.last (gap.getLast hgap) ?_ (hspace _ (List.getLast_mem hgap))
      rw [List.getLast?_append, List.getLast?_eq_some_getLast hgap, Option.some_or, Option.mem_def]
    have hrestTrimmed : IsTrimmed space rest := by
      refine ⟨hhead, fun x hx => htrimmed.last x ?_⟩
      rw [Option.mem_def] at hx ⊢
      rw [List.getLast?_append, List.getLast?_append, hx, Option.some_or, Option.some_or]
    obtain ⟨last, hlast, hlastMark⟩ : ∃ x, piece.getLast? = some x ∧ mark x := by
      rwa [Option.any_eq_true] at hmark
    have hpiece : piece ≠ [] := by
      rintro rfl
      exact absurd hlast (by simp)
    have hpieceTrimmed : IsTrimmed space piece := by
      refine ⟨fun x hx => htrimmed.head x ?_, fun x hx => ?_⟩
      · rw [Option.mem_def] at hx ⊢
        rw [List.head?_append, hx, Option.some_or]
      · obtain rfl : last = x := Option.some.inj (hlast.symm.trans hx)
        exact hmarks last hlastMark
    obtain ⟨hneNil, htrim, hwhole', hclosed⟩ := ih hrestTrimmed hrest
    exact ⟨List.forall_mem_cons.mpr ⟨hpiece, hneNil⟩,
      List.forall_mem_cons.mpr ⟨hpieceTrimmed, htrim⟩,
      List.forall_mem_cons.mpr ⟨hwhole, hwhole'⟩,
      List.pairwise_cons.mpr ⟨fun _ _ => hmark, hclosed⟩⟩

/-- Pieces that are not empty do not join to the empty text. -/
theorem intercalate_ne_nil {ps : List (List α)} (h : IsProper mark space ps) (hne : ps ≠ [])
    (sep : α) : [sep].intercalate ps ≠ [] := by
  obtain ⟨p, ps, rfl⟩ := List.exists_cons_of_ne_nil hne
  have hp := h.ne_nil p List.mem_cons_self
  cases ps with
  | nil => rwa [List.intercalate_singleton]
  | cons q ps => simp [hp]

/-- Proper pieces that are joined are trimmed. -/
theorem isTrimmed_intercalate {ps : List (List α)} (h : IsProper mark space ps) (sep : α) :
    IsTrimmed space ([sep].intercalate ps) := by
  induction ps with
  | nil => exact ⟨by simp, by simp⟩
  | cons p ps ih =>
    have htail := ih (h.sublist (List.sublist_cons_self p ps))
    have hp := h.trimmed p List.mem_cons_self
    have hpne := h.ne_nil p List.mem_cons_self
    cases ps with
    | nil => rwa [List.intercalate_singleton]
    | cons q ps =>
      have hne := intercalate_ne_nil (h.sublist (List.sublist_cons_self p _))
        (List.cons_ne_nil q ps) sep
      rw [List.intercalate_cons_cons]
      generalize [sep].intercalate (q :: ps) = rest at *
      -- the ends are those of the first piece and of the rest
      refine ⟨fun x hx => hp.head x ?_, fun x hx => htail.last x ?_⟩
      · rwa [List.append_assoc, List.head?_append_of_ne_nil p hpne] at hx
      · rwa [List.getLast?_append_of_ne_nil _ hne] at hx

/-- Proper pieces come back when they are joined by a space and cut again. -/
theorem split_intercalate {ps : List (List α)} (h : IsProper mark space ps) (hne : ps ≠ [])
    {sep : α} (hsep : space sep) : split mark space ([sep].intercalate ps) = ps := by
  -- the cut is determined by its shape, so it is enough to build one
  rw [← isCut_iff]
  induction ps with
  | nil => exact absurd rfl hne
  | cons p ps ih =>
    have htail := h.sublist (List.sublist_cons_self p ps)
    cases ps with
    | nil =>
      rw [List.intercalate_singleton]
      exact .last (h.whole p List.mem_cons_self)
    | cons q ps =>
      have hclosed := (List.pairwise_cons.mp h.closed).1 q List.mem_cons_self
      rw [List.intercalate_cons_cons, List.append_assoc]
      -- the separator is the whole gap, because the rest begins with no space
      refine .cut (h.whole p List.mem_cons_self) hclosed (List.cons_ne_nil sep []) ?_ ?_
        (ih htail (List.cons_ne_nil q ps))
      · rw [List.forall_mem_singleton]
        exact hsep
      · exact (isTrimmed_intercalate htail sep).head

end TextCuts
