import ScriptServer.Json.Writer
import ScriptServer.Proofs.Dictionary
import ScriptServer.Proofs.Json.Language

/-!
# Written trees are read back

What `encodeTree` writes for a tree is a text of a document that means the tree (`written`), so the
theory of the reader says when it is read. Whether a tree can be written at all is decided by its
numbers (`encodeTree_eq`).
-/

namespace ScriptServer.Json

/-! ## Trees -/

namespace Tree

mutual

/-- The numbers in document order. -/
def numbers : Tree → List Binary64
  | .number x => [x]
  | .array items => numbersItems items
  | .object members => numbersMembers members
  | _ => []

def numbersItems : List Tree → List Binary64
  | [] => []
  | t :: ts => numbers t ++ numbersItems ts

def numbersMembers : List (String × Tree) → List Binary64
  | [] => []
  | (_, t) :: ms => numbers t ++ numbersMembers ms

end

mutual

/-- The greatest number of arrays and objects around a node. -/
def depth : Tree → Nat
  | .array items => depthItems items
  | .object members => depthMembers members
  | _ => 0

def depthItems : List Tree → Nat
  | [] => 0
  | t :: ts => max (depth t + 1) (depthItems ts)

def depthMembers : List (String × Tree) → Nat
  | [] => 0
  | (_, t) :: ms => max (depth t + 1) (depthMembers ms)

end

mutual

/-- The members of every object are a dictionary: their keys ascend. -/
def IsOrdered : Tree → Prop
  | .array items => IsOrderedItems items
  | .object members => Dictionary.Ascending members ∧ IsOrderedMembers members
  | _ => True

def IsOrderedItems : List Tree → Prop
  | [] => True
  | t :: ts => IsOrdered t ∧ IsOrderedItems ts

def IsOrderedMembers : List (String × Tree) → Prop
  | [] => True
  | (_, t) :: ms => IsOrdered t ∧ IsOrderedMembers ms

end

/-- Induction in which an array or object may use the property of everything in it. -/
@[elab_as_elim]
theorem induction {P : Tree → Prop} (null : P .null) (bool : ∀ b, P (.bool b))
    (number : ∀ x, P (.number x)) (string : ∀ s, P (.string s))
    (array : ∀ items, (∀ t ∈ items, P t) → P (.array items))
    (object : ∀ members, (∀ m ∈ members, P m.2) → P (.object members)) (t : Tree) : P t :=
  @Tree.rec P (fun items => ∀ t ∈ items, P t) (fun members => ∀ m ∈ members, P m.2) (fun m => P m.2)
    null bool number string array object (fun _ h => absurd h List.not_mem_nil)
    (fun _ _ ht hts => List.forall_mem_cons.mpr ⟨ht, hts⟩) (fun _ h => absurd h List.not_mem_nil)
    (fun _ _ hm hms => List.forall_mem_cons.mpr ⟨hm, hms⟩) (fun _ _ ht => ht) t

theorem depthItems_le {items : List Tree} {n : Nat} :
    depthItems items ≤ n ↔ ∀ t ∈ items, t.depth + 1 ≤ n := by
  induction items with
  | nil => simp [depthItems]
  | cons t ts ih => rw [depthItems, Nat.max_le, ih, List.forall_mem_cons]

theorem depthMembers_le {members : List (String × Tree)} {n : Nat} :
    depthMembers members ≤ n ↔ ∀ m ∈ members, m.2.depth + 1 ≤ n := by
  induction members with
  | nil => simp [depthMembers]
  | cons m ms ih => rw [depthMembers, Nat.max_le, ih, List.forall_mem_cons]

theorem isOrderedItems_iff {items : List Tree} :
    IsOrderedItems items ↔ ∀ t ∈ items, t.IsOrdered := by
  induction items with
  | nil => simp [IsOrderedItems]
  | cons t ts ih => rw [IsOrderedItems, ih, List.forall_mem_cons]

theorem isOrderedMembers_iff {members : List (String × Tree)} :
    IsOrderedMembers members ↔ ∀ m ∈ members, m.2.IsOrdered := by
  induction members with
  | nil => simp [IsOrderedMembers]
  | cons m ms ih => rw [IsOrderedMembers, ih, List.forall_mem_cons]

theorem mem_numbersItems {items : List Tree} {x : Binary64} :
    x ∈ numbersItems items ↔ ∃ t ∈ items, x ∈ t.numbers := by
  induction items with
  | nil => simp [numbersItems]
  | cons t ts ih => rw [numbersItems, List.mem_append, ih, List.exists_mem_cons_iff]

theorem mem_numbersMembers {members : List (String × Tree)} {x : Binary64} :
    x ∈ numbersMembers members ↔ ∃ m ∈ members, x ∈ m.2.numbers := by
  induction members with
  | nil => simp [numbersMembers]
  | cons m ms ih => rw [numbersMembers, List.mem_append, ih, List.exists_mem_cons_iff]

end Tree

/-! ## Which trees can be written -/

/-- The failure to write a number that is not finite. -/
def EncodeError.of (x : Binary64) : EncodeError :=
  if x.isNaN then .nan else .infinite x.negative

/-- The first number that is not finite. -/
def firstBad (xs : List Binary64) : Option Binary64 := xs.find? fun x => !x.isFinite

theorem encodeNumber_eq (x : Binary64) :
    encodeNumber x = if x.isFinite then .ok x.shortest else .error (.of x) := by
  unfold encodeNumber EncodeError.of
  have h := Nat.lt_trichotomy x.pattern Binary64.infinity
  simp only [Binary64.isNaN, Binary64.isInfinite, Binary64.isFinite, decide_eq_true_eq]
  rcases h with h | h | h
  · rw [if_neg (by omega), if_neg (by omega), if_pos h]
  · rw [if_neg (by omega), if_pos h, if_neg (by omega), if_neg (by omega)]
  · rw [if_pos h, if_neg (by omega), if_pos h]

/-- Writing gives a text or fails at the first number that is not finite. -/
def Written {α : Type} (xs : List Binary64) (r : Except EncodeError α) : Prop :=
  match firstBad xs with
  | none => ∃ out, r = .ok out
  | some x => r = .error (.of x)

theorem firstBad_append (xs ys : List Binary64) :
    firstBad (xs ++ ys) = (firstBad xs).or (firstBad ys) := List.find?_append

theorem written_items {items : List Tree}
    (ih : ∀ t ∈ items, Written t.numbers (encodeTree t)) :
    Written (Tree.numbersItems items) (encodeItems items) := by
  induction items with
  | nil => exact ⟨[], rfl⟩
  | cons t ts ihs =>
    obtain ⟨ht, hts⟩ := List.forall_mem_cons.mp ih
    have hrest := ihs hts
    simp only [Written, Tree.numbersItems, encodeItems, firstBad_append] at ht hrest ⊢
    cases h : firstBad t.numbers with
    | some x => rw [h] at ht; rw [ht]; rfl
    | none =>
      rw [h] at ht
      obtain ⟨part, ht⟩ := ht
      rw [Option.none_or, ht]
      cases h' : firstBad (Tree.numbersItems ts) with
      | some x => rw [h'] at hrest; simp only [hrest]
      | none => rw [h'] at hrest; obtain ⟨parts, hrest⟩ := hrest; exact ⟨_, by rw [hrest]⟩

theorem written_members {members : List (String × Tree)}
    (ih : ∀ m ∈ members, Written m.2.numbers (encodeTree m.2)) :
    Written (Tree.numbersMembers members) (encodeMembers members) := by
  induction members with
  | nil => exact ⟨[], rfl⟩
  | cons m ms ihs =>
    obtain ⟨k, t⟩ := m
    obtain ⟨ht, hms⟩ := List.forall_mem_cons.mp ih
    have hrest := ihs hms
    simp only [Written, Tree.numbersMembers, encodeMembers, firstBad_append] at ht hrest ⊢
    cases h : firstBad t.numbers with
    | some x => rw [h] at ht; rw [ht]; rfl
    | none =>
      rw [h] at ht
      obtain ⟨part, ht⟩ := ht
      rw [Option.none_or, ht]
      cases h' : firstBad (Tree.numbersMembers ms) with
      | some x => rw [h'] at hrest; simp only [hrest]
      | none => rw [h'] at hrest; obtain ⟨parts, hrest⟩ := hrest; exact ⟨_, by rw [hrest]⟩

theorem written_tree (t : Tree) : Written t.numbers (encodeTree t) := by
  induction t using Tree.induction with
  | null => exact ⟨_, rfl⟩
  | bool b => exact ⟨_, rfl⟩
  | string s => exact ⟨_, rfl⟩
  | number x =>
    simp only [Written, Tree.numbers, firstBad, encodeTree, encodeNumber_eq, List.find?_singleton]
    cases x.isFinite with
    | true => exact ⟨_, rfl⟩
    | false => rfl
  | array items ih =>
    have h := written_items ih
    simp only [Written, Tree.numbers, encodeTree] at h ⊢
    cases hb : firstBad (Tree.numbersItems items) with
    | some x => rw [hb] at h; simp only [h]
    | none => rw [hb] at h; obtain ⟨parts, h⟩ := h; exact ⟨_, by rw [h]⟩
  | object members ih =>
    have h := written_members ih
    simp only [Written, Tree.numbers, encodeTree] at h ⊢
    cases hb : firstBad (Tree.numbersMembers members) with
    | some x => rw [hb] at h; simp only [h]
    | none => rw [hb] at h; obtain ⟨parts, h⟩ := h; exact ⟨_, by rw [h]⟩

/-! ## Strings -/

def pieceOf (c : Char) : Piece :=
  if c = '"' then .escape '"'
  else if c = '\\' then .escape '\\'
  else if c = '\n' then .escape 'n'
  else if c = '\r' then .escape 'r'
  else if c = '\t' then .escape 't'
  else if c = '\x08' then .escape 'b'
  else if c = '\x0c' then .escape 'f'
  else if c.toNat < 0x20 then .unicode (Text.hexadecimal 4 c.toNat)
  else .char c

theorem text_pieceOf (c : Char) : (pieceOf c).text = escape c := by
  simp only [pieceOf, escape]
  repeat' split
  all_goals rfl

theorem hexValue_hexadecimal (width n : Nat) : hexValue (Text.hexadecimal width n) = n :=
  Text.foldl_hexadecimal width n

theorem hexadecimal_control (n : Nat) (hn : n < 0x20) : HexQuad (Text.hexadecimal 4 n) := by
  have table : ∀ n < 0x20, (Text.hexadecimal 4 n).length = 4 ∧
      ((Text.hexadecimal 4 n).all fun c => (Text.hexValue? c).isSome) = true := by decide
  obtain ⟨hlen, hdigits⟩ := table n hn
  exact ⟨hlen, List.all_eq_true.mp hdigits⟩

/-- The piece stands for the character, whatever pieces follow. -/
def StandsFor (p : Piece) (c : Char) : Prop :=
  p.WellFormed ∧ ∀ ps : List Piece, (∀ p ∈ ps, p.WellFormed) → content (p :: ps) = c :: content ps

theorem escape_standsFor {e c : Char} (h : escapes.lookup e = some c) : StandsFor (.escape e) c :=
  ⟨by show (escapes.lookup e).isSome = true; rw [h]; rfl, fun _ _ => content_escape h⟩

theorem pieceOf_standsFor (c : Char) : StandsFor (pieceOf c) c := by
  unfold pieceOf
  by_cases hquote : c = '"'
  · subst hquote; exact escape_standsFor rfl
  by_cases hslash : c = '\\'
  · subst hslash; exact escape_standsFor rfl
  rw [if_neg hquote, if_neg hslash]
  split
  · next h => subst h; exact escape_standsFor rfl
  split
  · next h => subst h; exact escape_standsFor rfl
  split
  · next h => subst h; exact escape_standsFor rfl
  split
  · next h => subst h; exact escape_standsFor rfl
  split
  · next h => subst h; exact escape_standsFor rfl
  split
  · next hlow =>
    have hquad := hexadecimal_control c.toNat hlow
    have hval := hexValue_hexadecimal 4 c.toNat
    have hhigh : isHighSurrogate c.toNat = false := by
      simp only [isHighSurrogate, Bool.and_eq_false_iff, decide_eq_false_iff_not]; omega
    have hsecond : isLowSurrogate c.toNat = false := by
      simp only [isLowSurrogate, Bool.and_eq_false_iff, decide_eq_false_iff_not]; omega
    refine ⟨hquad, fun ps hps => ?_⟩
    rw [content_lone [] hps (fun h => by rw [hval, hhigh] at h; cases h), hval, loneUnit, hhigh,
      hsecond, Char.ofNat_toNat]
    rfl
  · next hlow => exact ⟨⟨hquote, hslash, Nat.le_of_not_lt hlow⟩, fun _ _ => rfl⟩

def piecesOf (cs : List Char) : List Piece := cs.map pieceOf

theorem wellFormed_piecesOf (cs : List Char) : ∀ p ∈ piecesOf cs, p.WellFormed := by
  intro p hp
  obtain ⟨c, _, rfl⟩ := List.mem_map.mp hp
  exact (pieceOf_standsFor c).1

theorem content_piecesOf (cs : List Char) : content (piecesOf cs) = cs := by
  induction cs with
  | nil => rfl
  | cons c cs ih =>
    change content (pieceOf c :: piecesOf cs) = _
    rw [(pieceOf_standsFor c).2 _ (wellFormed_piecesOf cs), ih]

theorem quote_eq_quoted (s : String) : quote s = quoted (piecesOf s.toList) := by
  rw [quote, quoted, piecesOf, List.flatMap_map]
  simp only [text_pieceOf]

/-! ## Numbers -/

/-- A finite number is written as a literal whose value it is. -/
theorem shortest_literal {x : Binary64} (hx : x.isFinite = true) :
    ∃ l : Literal, l.WellFormed ∧ l.text = x.shortest ∧ l.value = x := by
  obtain ⟨whole, fraction, hwhole, hfraction, htext, hval⟩ := Binary64.shortest_spells hx
  have hsign : x.sign = minusText x.negative := rfl
  by_cases hf : fraction = []
  · subst hf
    refine ⟨⟨x.negative, whole, none, none⟩, ⟨hwhole, by simp, by simp⟩, ?_, ?_⟩
    · rw [htext, hsign, Literal.text_eq, if_pos rfl]; rfl
    · exact hval
  · refine ⟨⟨x.negative, whole, some fraction, none⟩,
      ⟨hwhole, fun ds h => Option.some.inj h ▸ ⟨hf, hfraction⟩, by simp⟩, ?_, ?_⟩
    · rw [htext, hsign, Literal.text_eq, if_neg hf]
      simp only [fractionText, exponentText, Option.elim_some, Option.elim_none, List.append_nil]
    · simpa only [Literal.value, Literal.scale, Literal.digits, Option.elim_none, Option.getD_some,
        zero_sub] using hval

/-! ## The document that a text of a tree writes -/

/-- A document for a tree: it means the tree, is as deep and has finite numbers. -/
structure Mirrors (doc : Document) (t : Tree) : Prop where
  meaning : doc.meaning = t
  depth : doc.depth = t.depth
  finite : doc.Finite

theorem mirrors_flat {doc : Document} {t : Tree} (hm : doc.meaning = t) (hd : doc.depth = 0)
    (ht : t.depth = 0) (hl : doc.literals = []) : Mirrors doc t :=
  ⟨hm, hd.trans ht.symm, by rw [Document.Finite, hl]; simp⟩

variable {α β : Type}

theorem separated_commas {W : α → List Char → Prop} {as : List α} {parts : List (List Char)}
    (h : List.Forall₂ W as parts) :
    (as = [] ∧ commas parts = []) ∨ Separated W as (commas parts) := by
  induction h with
  | nil => exact .inl ⟨rfl, rfl⟩
  | @cons a part as parts ha has ih =>
    refine .inr ?_
    cases has with
    | nil => exact ⟨part, [], [], by simp [commas], ha, blank_nil, .inl ⟨rfl, rfl⟩⟩
    | @cons b part' bs parts' hb hbs =>
      refine ⟨part, [], ',' :: commas (part' :: parts'), by simp [commas], ha, blank_nil,
        .inr ⟨_, rfl, ?_⟩⟩
      exact ih.resolve_left fun h => List.cons_ne_nil _ _ h.1

/-- The parts of a list between commas and closed by a bracket. -/
theorem list_written {F : Form α β} (close : Char) {as : List α} {parts : List (List Char)}
    (h : List.Forall₂ F.Writes as parts) : (F.list close).Writes as (commas parts ++ [close]) := by
  refine ⟨commas parts, rfl, ?_⟩
  rcases separated_commas h with ⟨rfl, hnil⟩ | hsep
  · exact .inl ⟨rfl, by rw [hnil]; exact blank_nil⟩
  · exact .inr hsep

/-- The texts of items are those of documents that mirror them. -/
theorem mirrored_items {items : List Tree} {parts : List (List Char)}
    (ih : ∀ t ∈ items, ∀ cs, t.IsOrdered → encodeTree t = .ok cs →
      ∃ doc : Document, doc.Spells cs ∧ Mirrors doc t)
    (hord : Tree.IsOrderedItems items) (h : encodeItems items = .ok parts) :
    ∃ docs, List.Forall₂ valueForm.Writes docs parts ∧ Document.meaningItems docs = items ∧
      Document.depthItems docs = Tree.depthItems items ∧ ∀ doc ∈ docs, doc.Finite := by
  induction items generalizing parts with
  | nil => cases h; exact ⟨[], .nil, rfl, rfl, by simp⟩
  | cons t ts ihs =>
    obtain ⟨ht, hts⟩ := List.forall_mem_cons.mp ih
    rw [encodeItems] at h
    split at h
    · cases h
    next part hpart =>
    split at h
    · cases h
    next parts hparts =>
    cases h
    obtain ⟨doc, hs, hm, hd, hf⟩ := ht part hord.1 hpart
    obtain ⟨docs, hsAll, hmAll, hdAll, hfAll⟩ := ihs hts hord.2 hparts
    refine ⟨doc :: docs, .cons ⟨[], part, rfl, blank_nil, hs⟩ hsAll, ?_, ?_,
      List.forall_mem_cons.mpr ⟨hf, hfAll⟩⟩
    · rw [Document.meaningItems, hm, hmAll]
    · rw [Document.depthItems, Tree.depthItems, hd, hdAll]

theorem mirrored_members {members : List (String × Tree)} {parts : List (List Char)}
    (ih : ∀ m ∈ members, ∀ cs, m.2.IsOrdered → encodeTree m.2 = .ok cs →
      ∃ doc : Document, doc.Spells cs ∧ Mirrors doc m.2)
    (hord : Tree.IsOrderedMembers members) (h : encodeMembers members = .ok parts) :
    ∃ docs, List.Forall₂ memberForm.Writes docs parts ∧ Document.meaningMembers docs = members ∧
      Document.depthMembers docs = Tree.depthMembers members ∧ ∀ m ∈ docs, m.2.Finite := by
  induction members generalizing parts with
  | nil => cases h; exact ⟨[], .nil, rfl, rfl, by simp⟩
  | cons m ms ihs =>
    obtain ⟨key, t⟩ := m
    obtain ⟨ht, hms⟩ := List.forall_mem_cons.mp ih
    rw [encodeMembers] at h
    split at h
    · cases h
    next part hpart =>
    split at h
    · cases h
    next parts hparts =>
    cases h
    obtain ⟨doc, hs, hm, hd, hf⟩ := ht part hord.1 hpart
    obtain ⟨docs, hsAll, hmAll, hdAll, hfAll⟩ := ihs hms hord.2 hparts
    refine ⟨(piecesOf key.toList, doc) :: docs, .cons ?_ hsAll, ?_, ?_,
      List.forall_mem_cons.mpr ⟨hf, hfAll⟩⟩
    · exact ⟨[], [], part, by rw [quote_eq_quoted]; rfl, blank_nil, wellFormed_piecesOf _,
        blank_nil, [], part, rfl, blank_nil, hs⟩
    · rw [Document.meaningMembers, hm, hmAll, content_piecesOf, String.ofList_toList]
    · rw [Document.depthMembers, Tree.depthMembers, hd, hdAll]

theorem mirrored (t : Tree) : ∀ cs, t.IsOrdered → encodeTree t = .ok cs →
    ∃ doc : Document, doc.Spells cs ∧ Mirrors doc t := by
  induction t using Tree.induction with
  | null =>
    rintro cs - h
    cases h
    exact ⟨.null, rfl, mirrors_flat rfl rfl rfl rfl⟩
  | bool b =>
    rintro cs - h
    cases h
    exact ⟨.bool b, rfl, mirrors_flat rfl rfl rfl rfl⟩
  | string s =>
    rintro cs - h
    cases h
    refine ⟨.string (piecesOf s.toList), ⟨wellFormed_piecesOf _, quote_eq_quoted s⟩,
      mirrors_flat ?_ rfl rfl rfl⟩
    rw [Document.meaning, content_piecesOf, String.ofList_toList]
  | number x =>
    rintro cs - h
    rw [encodeTree, encodeNumber_eq] at h
    split at h
    · next hx =>
      cases h
      obtain ⟨l, hl, htext, hval⟩ := shortest_literal hx
      refine ⟨.number l, ⟨hl, htext.symm⟩, by rw [Document.meaning, hval], rfl, ?_⟩
      intro l' hl'
      rw [List.mem_singleton.mp hl', hval]
      exact hx
    · cases h
  | array items ih =>
    intro cs hord h
    rw [encodeTree] at h
    split at h
    · next parts hparts =>
      cases h
      obtain ⟨docs, hs, hm, hd, hf⟩ := mirrored_items ih hord hparts
      exact ⟨.array docs, spells_array.mpr ⟨_, rfl, list_written ']' hs⟩,
        by rw [Document.meaning, hm], hd, finite_array.mpr hf⟩
    · cases h
  | object members ih =>
    intro cs hord h
    rw [encodeTree] at h
    split at h
    · next parts hparts =>
      cases h
      obtain ⟨docs, hs, hm, hd, hf⟩ := mirrored_members ih hord.2 hparts
      refine ⟨.object docs, spells_object.mpr ⟨_, rfl, list_written '\x7d' hs⟩, ?_, hd,
        finite_object.mpr hf⟩
      rw [Document.meaning, hm, Dictionary.ofList_of_ascending hord.1]
    · cases h

/-! ## What decoding gives -/

/-- A tree that a text can stand for. -/
structure Tree.Decoded (t : Tree) : Prop where
  ordered : t.IsOrdered
  finite : ∀ x ∈ t.numbers, x.isFinite = true
  depth : t.depth ≤ maxDepth

theorem Document.induction {P : Document → Prop} (null : P .null) (bool : ∀ b, P (.bool b))
    (number : ∀ l, P (.number l)) (string : ∀ ps, P (.string ps))
    (array : ∀ items, (∀ doc ∈ items, P doc) → P (.array items))
    (object : ∀ members, (∀ m ∈ members, P m.2) → P (.object members)) (doc : Document) : P doc :=
  @Document.rec P (fun items => ∀ doc ∈ items, P doc) (fun members => ∀ m ∈ members, P m.2)
    (fun m => P m.2) null bool number string array object (fun _ h => absurd h List.not_mem_nil)
    (fun _ _ ht hts => List.forall_mem_cons.mpr ⟨ht, hts⟩) (fun _ h => absurd h List.not_mem_nil)
    (fun _ _ hm hms => List.forall_mem_cons.mpr ⟨hm, hms⟩) (fun _ _ ht => ht) doc

/-- The meaning of a document has ordered objects and finite numbers if the literals do, and it is
not deeper. -/
theorem meaning_ordered (doc : Document) : doc.Finite → doc.meaning.IsOrdered ∧
    (∀ x ∈ doc.meaning.numbers, x.isFinite = true) ∧ doc.meaning.depth ≤ doc.depth := by
  induction doc using Document.induction with
  | null => exact fun _ => ⟨trivial, by simp [Document.meaning, Tree.numbers], Nat.le_refl _⟩
  | bool b => exact fun _ => ⟨trivial, by simp [Document.meaning, Tree.numbers], Nat.le_refl _⟩
  | string ps => exact fun _ => ⟨trivial, by simp [Document.meaning, Tree.numbers], Nat.le_refl _⟩
  | number l =>
    intro hf
    refine ⟨trivial, fun x hx => ?_, Nat.le_refl _⟩
    rw [List.mem_singleton.mp hx]
    exact hf l (List.mem_singleton.mpr rfl)
  | array items ih =>
    intro hf
    have hall := fun doc hdoc => ih doc hdoc (finite_array.mp hf doc hdoc)
    have hmem : ∀ t ∈ Document.meaningItems items, ∃ doc ∈ items, doc.meaning = t := by
      rw [meaningItems_eq_map]; exact fun t => List.mem_map.mp
    refine ⟨Tree.isOrderedItems_iff.mpr fun t ht => ?_, fun x hx => ?_,
      Tree.depthItems_le.mpr fun t ht => ?_⟩
    · obtain ⟨doc, hdoc, rfl⟩ := hmem t ht
      exact (hall doc hdoc).1
    · obtain ⟨t, ht, hx⟩ := Tree.mem_numbersItems.mp hx
      obtain ⟨doc, hdoc, rfl⟩ := hmem t ht
      exact (hall doc hdoc).2.1 x hx
    · obtain ⟨doc, hdoc, rfl⟩ := hmem t ht
      have h := depthItems_lt.mp (Nat.lt_succ_self (Document.depthItems items)) doc hdoc
      exact Nat.succ_le_of_lt (Nat.lt_of_le_of_lt (hall doc hdoc).2.2 h)
  | object members ih =>
    intro hf
    have hall := fun m hm => ih m hm (finite_object.mp hf m hm)
    have hmem : ∀ m ∈ Dictionary.ofList (Document.meaningMembers members),
        ∃ m' ∈ members, m'.2.meaning = m.2 := by
      intro m hm
      have := Dictionary.mem_ofList hm
      rw [meaningMembers_eq_map] at this
      obtain ⟨m', hm', rfl⟩ := List.mem_map.mp this
      exact ⟨m', hm', rfl⟩
    refine ⟨⟨Dictionary.ascending_ofList _, Tree.isOrderedMembers_iff.mpr fun m hm => ?_⟩,
      fun x hx => ?_, Tree.depthMembers_le.mpr fun m hm => ?_⟩
    · obtain ⟨m', hm', he⟩ := hmem m hm
      exact he ▸ (hall m' hm').1
    · obtain ⟨m, hm, hx⟩ := Tree.mem_numbersMembers.mp hx
      obtain ⟨m', hm', he⟩ := hmem m hm
      rw [← he] at hx
      exact (hall m' hm').2.1 x hx
    · obtain ⟨m', hm', he⟩ := hmem m hm
      have h := depthMembers_lt.mp (Nat.lt_succ_self (Document.depthMembers members)) m' hm'
      rw [← he]
      exact Nat.succ_le_of_lt (Nat.lt_of_le_of_lt (hall m' hm').2.2 h)

theorem decoded {text : String} {t : Tree} (h : decode text = .ok t) : t.Decoded := by
  obtain ⟨doc, _, hd, hf, rfl⟩ := isTextOf_of_decode h
  obtain ⟨ho, hn, hle⟩ := meaning_ordered doc hf
  exact ⟨ho, hn, Nat.le_trans hle hd⟩

/-! ## The round trip -/

theorem isTextOf_of_encode {t : Tree} (ht : t.IsOrdered) {text : String} (h : encode t = .ok text) :
    ∃ doc : Document, doc.IsTextOf text.toList ∧ Mirrors doc t := by
  cases hcs : encodeTree t with
  | error e => rw [encode, hcs] at h; cases h
  | ok cs =>
    rw [encode, hcs] at h
    cases h
    obtain ⟨doc, hs, hm⟩ := mirrored t cs ht hcs
    refine ⟨doc, ⟨[], cs, [], ?_, blank_nil, hs, blank_nil⟩, hm⟩
    rw [String.toList_ofList, List.nil_append, List.append_nil]

theorem decode_encode {t : Tree} (ht : t.IsOrdered) {text : String} (h : encode t = .ok text) :
    (t.depth ≤ maxDepth → decode text = .ok t) ∧
      (maxDepth < t.depth → ∃ off, decode text = .error ⟨.tooDeep, off⟩) := by
  obtain ⟨doc, htext, rfl, hd, hf⟩ := isTextOf_of_encode ht h
  rw [← hd]
  exact decode_of_isTextOf htext hf

theorem firstBad_eq_none {xs : List Binary64} :
    firstBad xs = none ↔ ∀ x ∈ xs, x.isFinite = true := by
  simp only [firstBad, List.find?_eq_none, Bool.not_eq_true', Bool.not_eq_false]

theorem encode_ok_iff (t : Tree) :
    (∃ text, encode t = .ok text) ↔ ∀ x ∈ t.numbers, x.isFinite = true := by
  have h := written_tree t
  rw [← firstBad_eq_none]
  unfold Written at h
  cases hb : firstBad t.numbers with
  | none =>
    rw [hb] at h
    obtain ⟨cs, h⟩ := h
    exact ⟨fun _ => rfl, fun _ => ⟨String.ofList cs, by rw [encode, h]; rfl⟩⟩
  | some x =>
    rw [hb] at h
    refine ⟨fun ⟨text, ht⟩ => ?_, fun h => by cases h⟩
    rw [encode, h] at ht
    cases ht

theorem encode_error {t : Tree} {x : Binary64} (hx : firstBad t.numbers = some x) :
    encode t = .error (.of x) := by
  have h := written_tree t
  rw [Written, hx] at h
  rw [encode, h]
  rfl

/-- The wording for a number that is not finite. -/
theorem message_of (x : Binary64) : (EncodeError.of x).message =
    "unsupported value: " ++
      (if x.isNaN then "NaN" else if x.negative then "-Inf" else "+Inf") := by
  unfold EncodeError.of
  cases x.isNaN <;> cases x.negative <;> rfl

theorem message_tooDeep (off : Nat) :
    (DecodeError.mk .tooDeep off).message = "exceeded max nesting depth" := rfl

/-- A tree with ordered objects has a text if its numbers are finite, and otherwise fails with the
first that is not. The text is decoded as the tree if no node lies too deep, and otherwise refused
for its depth. What any text is decoded as has a text that is decoded as the same. -/
theorem encode_decode_round_trip :
    (∀ t : Tree, t.IsOrdered →
      ((∃ text, encode t = .ok text) ↔ ∀ x ∈ t.numbers, x.isFinite = true) ∧
      (∀ before x after, t.numbers = before ++ x :: after →
        (∀ y ∈ before, y.isFinite = true) → x.isFinite = false →
        ∃ e, encode t = .error e ∧ e.message = "unsupported value: " ++
          (if x.isNaN then "NaN" else if x.negative then "-Inf" else "+Inf")) ∧
      ∀ text, encode t = .ok text →
        (decode text = .ok t ↔ t.depth ≤ maxDepth) ∧
        (maxDepth < t.depth →
          ∃ e, decode text = .error e ∧ e.message = "exceeded max nesting depth")) ∧
    ∀ (input : String) (t : Tree), decode input = .ok t →
      t.Decoded ∧ ∃ text, encode t = .ok text ∧ decode text = .ok t := by
  refine ⟨fun t ht => ⟨encode_ok_iff t, ?_, fun text htext => ?_⟩, fun input t h => ?_⟩
  · intro before x after hxs hbefore hx
    refine ⟨.of x, encode_error ?_, message_of x⟩
    have hnone : firstBad before = none := firstBad_eq_none.mpr hbefore
    rw [hxs, firstBad_append, hnone, Option.none_or, firstBad, List.find?_cons, hx]
    rfl
  · obtain ⟨hread, hdeep⟩ := decode_encode ht htext
    refine ⟨⟨fun h => ?_, hread⟩, fun h => ?_⟩
    · by_contra hd
      obtain ⟨off, he⟩ := hdeep (Nat.lt_of_not_le hd)
      rw [he] at h
      cases h
    · obtain ⟨off, he⟩ := hdeep h
      exact ⟨_, he, message_tooDeep off⟩
  · have hdec := decoded h
    obtain ⟨text, htext⟩ := (encode_ok_iff t).mpr hdec.finite
    exact ⟨hdec, text, htext, (decode_encode hdec.ordered htext).1 hdec.depth⟩

/-- A negative zero under a key that needs an escape. -/
theorem round_trip_negative_zero :
    let t : Tree := .object [("a\"b", .array [.number ⟨0x8000000000000000⟩, .null])]
    t.IsOrdered ∧ encode t = .ok "\x7b\"a\\\"b\":[-0,null]\x7d" ∧
      decode "\x7b\"a\\\"b\":[-0,null]\x7d" = .ok t := by
  have hord : Tree.IsOrdered (.object [("a\"b", .array [.number ⟨0x8000000000000000⟩, .null])]) :=
    ⟨List.pairwise_singleton _ _, ⟨trivial, trivial, trivial⟩, trivial⟩
  have henc : encode (.object [("a\"b", .array [.number ⟨0x8000000000000000⟩, .null])]) =
      .ok "\x7b\"a\\\"b\":[-0,null]\x7d" := by rfl
  exact ⟨hord, henc, ((encode_decode_round_trip.1 _ hord).2.2 _ henc).1.mpr (by decide)⟩

end ScriptServer.Json
