import Mathlib.Data.List.Forall2
import ScriptServer.Proofs.Json.Numeral
import ScriptServer.Proofs.Json.Quoted

/-!
# Lists of items and members

Arrays and objects are read alike: something is read, then a comma or the closing bracket.
`readSeparated` is this reader for anything that can be read, and `Reads` says what it takes to read
something right. A list is read right if what stands in it is.
-/

namespace ScriptServer.Json

variable {α β γ : Type}

/-! ## What is read -/

/-- A part of a document: its texts, its meaning, whether it fits into some levels of containers,
and whether its numbers are finite. -/
structure Form (α β : Type) where
  Writes : α → List Char → Prop
  meaning : α → β
  Fits : Nat → α → Prop
  Finite : α → Prop

/-- White space may stand in front, and what is behind it begins with neither white space nor a
closing bracket. -/
structure Form.Trims (F : Form α β) : Prop where
  lead : ∀ {x front text}, Blank front → F.Writes x text → F.Writes x (front ++ text)
  core : ∀ {x text}, F.Writes x text → ∃ front c tl, text = front ++ c :: tl ∧ Blank front ∧
    isBlank c = false ∧ c ≠ ']' ∧ c ≠ '\x7d' ∧ F.Writes x (c :: tl)

/-- The reader gives the meaning of what stands at the front, if it fits into `d` levels, and says
that it is too deep otherwise. -/
structure Reads (F : Form α β) (d : Nat) (r : Reader β) : Prop where
  sound : ∀ {pos cs y c'}, r (Cursor.at pos cs) = .ok (y, c') → ∃ x text rest pos',
    cs = text ++ rest ∧ F.Writes x text ∧ F.Fits d x ∧ F.Finite x ∧ F.meaning x = y ∧
    c' = Cursor.at pos' rest
  fits : ∀ (pos) {x text rest}, F.Writes x text → F.Finite x → EndsNumber rest → F.Fits d x →
    ∃ pos', r (Cursor.at pos (text ++ rest)) = .ok (F.meaning x, Cursor.at pos' rest)
  deep : ∀ (pos) {x text rest}, F.Writes x text → F.Finite x → EndsNumber rest → ¬ F.Fits d x →
    ∃ off, r (Cursor.at pos (text ++ rest)) = .error ⟨.tooDeep, off⟩

def mapRead (f : β → γ) (r : Reader β) : Reader γ := fun c =>
  match r c with
  | .error e => .error e
  | .ok (y, c) => .ok (f y, c)

theorem Reads.map {F : Form α β} {G : Form α γ} {d : Nat} {r : Reader β} (hr : Reads F d r)
    (f : β → γ) (hwrites : ∀ {x cs}, G.Writes x cs ↔ F.Writes x cs)
    (hmeaning : ∀ x, G.meaning x = f (F.meaning x)) (hfits : ∀ {x}, G.Fits d x ↔ F.Fits d x)
    (hfinite : ∀ {x}, G.Finite x ↔ F.Finite x) : Reads G d (mapRead f r) := by
  constructor
  · intro pos cs y c' h
    unfold mapRead at h
    split at h
    · cases h
    · next hread =>
      cases h
      obtain ⟨x, text, rest, pos', rfl, hw, hx, hfin, rfl, rfl⟩ := hr.sound hread
      exact ⟨x, text, rest, pos', rfl, hwrites.mpr hw, hfits.mpr hx, hfinite.mpr hfin, hmeaning x,
        rfl⟩
  · intro pos x text rest hw hfin hends hx
    obtain ⟨pos', h⟩ := hr.fits pos (hwrites.mp hw) (hfinite.mp hfin) hends (hfits.mp hx)
    refine ⟨pos', ?_⟩
    simp only [mapRead, h, hmeaning]
  · intro pos x text rest hw hfin hends hx
    obtain ⟨off, h⟩ := hr.deep pos (hwrites.mp hw) (hfinite.mp hfin) hends (mt hfits.mpr hx)
    refine ⟨off, ?_⟩
    simp only [mapRead, h]

/-! ## What ends a number -/

/-- White space, a comma or a closing bracket. -/
def Stops (c : Char) : Prop := isBlank c = true ∨ c = ',' ∨ c = ']' ∨ c = '\x7d'

theorem endsNumber_cons {c : Char} {cs : List Char} (h : Stops c) : EndsNumber (c :: cs) := by
  have key : Text.isDigit c = false ∧ c ≠ '.' ∧ c ≠ 'e' ∧ c ≠ 'E' := by
    simp only [Stops, isBlank, Bool.or_eq_true, beq_iff_eq] at h
    rcases h with (((rfl | rfl) | rfl) | rfl) | rfl | rfl | rfl <;> decide
  obtain ⟨hd, hp, he, hE⟩ := key
  exact ⟨noDigit_cons hd, fun h => hp (Option.some.inj h), fun h => he (Option.some.inj h),
    fun h => hE (Option.some.inj h)⟩

theorem endsNumber_nil : EndsNumber [] := ⟨by simp [NoDigit], by simp, by simp⟩

theorem endsNumber_blank {after rest : List Char} (ha : Blank after) (hr : EndsNumber rest) :
    EndsNumber (after ++ rest) := by
  cases after with
  | nil => exact hr
  | cons c after => exact endsNumber_cons (.inl (ha c List.mem_cons_self))

/-! ## Separated lists -/

/-- One or more things with commas between them. -/
def Separated (W : α → List Char → Prop) : List α → List Char → Prop
  | [], _ => False
  | x :: xs, cs => ∃ text after rest, cs = text ++ after ++ rest ∧ W x text ∧ Blank after ∧
      ((xs = [] ∧ rest = []) ∨ ∃ more, rest = ',' :: more ∧ Separated W xs more)

/-- Reads things up to the closing bracket, of which at most `fuel` follow. -/
def readSeparated (r : Reader β) (close : Char) (place : Place) : Nat → Reader (List β)
  | 0, c => .error (c.unexpected place)
  | fuel + 1, c =>
    match r c with
    | .error e => .error e
    | .ok (x, c) =>
      let c := skipBlank c
      if c.peek = some (byte ',') then
        match readSeparated r close place fuel c.step with
        | .error e => .error e
        | .ok (xs, c) => .ok (x :: xs, c)
      else if c.peek = some (byte close) then .ok ([x], c.step)
      else .error (c.unexpected place)

theorem readItems_eq (item : Reader Tree) (fuel : Nat) (c : Cursor) :
    readItems item fuel c = readSeparated item ']' .afterElement fuel c := by
  induction fuel generalizing c with
  | zero => rfl
  | succ fuel ih =>
    simp only [readItems, readSeparated, ih]
    cases item c with
    | error e => rfl
    | ok p =>
      cases hmore : readSeparated item ']' .afterElement fuel (skipBlank p.2).step <;>
        simp only [hmore]

theorem readMembers_eq (item : Reader Tree) (fuel : Nat) (c : Cursor) :
    readMembers item fuel c = readSeparated (readMember item) '\x7d' .afterMember fuel c := by
  induction fuel generalizing c with
  | zero => rfl
  | succ fuel ih =>
    simp only [readMembers, readSeparated, ih]
    cases readMember item c with
    | error e => rfl
    | ok p =>
      cases hmore : readSeparated (readMember item) '\x7d' .afterMember fuel
        (skipBlank p.2).step <;> simp only [hmore]

/-- What follows an element, told by characters. -/
theorem readSeparated_next (place : Place) (fuel : Nat) {r : Reader β} {close : Char}
    {pos pos' : Nat} {cs after rest : List Char} {y : β} (hclose : close.toNat < 0x80)
    (hr : r (Cursor.at pos cs) = .ok (y, Cursor.at pos' (after ++ rest))) (ha : Blank after)
    (hrest : ∀ c ∈ rest.head?, isBlank c = false) :
    ∃ pos'', readSeparated r close place (fuel + 1) (Cursor.at pos cs) =
      if rest.head? = some ',' then
        match readSeparated r close place fuel (Cursor.at pos'' rest.tail) with
        | .error e => .error e
        | .ok (ys, c) => .ok (y :: ys, c)
      else if rest.head? = some close then .ok ([y], Cursor.at pos'' rest.tail)
      else .error ((Cursor.at (pos' + after.length) rest).unexpected place) := by
  refine ⟨pos' + after.length + 1, ?_⟩
  have hstep : ∀ {d : Char}, d.toNat < 0x80 → rest.head? = some d →
      (Cursor.at (pos' + after.length) rest).step =
        Cursor.at (pos' + after.length + 1) rest.tail := by
    intro d hd h
    obtain ⟨tl, rfl⟩ := eq_cons_of_head? h
    exact step_ascii hd
  simp only [readSeparated, hr, skipBlank_append _ ha hrest, peek_eq_byte hclose,
    peek_eq_byte (show (',').toNat < 0x80 by decide)]
  by_cases hcomma : rest.head? = some ','
  · simp only [if_pos hcomma, hstep (by decide) hcomma]
  · simp only [if_neg hcomma]
    by_cases hc : rest.head? = some close
    · simp only [if_pos hc, hstep hclose hc]
    · simp only [if_neg hc]

section

variable {F : Form α β} {d : Nat} {r : Reader β} {close : Char} {place : Place} {fuel pos : Nat}
  {cs inner rest : List Char} {c' : Cursor} {xs : List α} {ys : List β}

theorem readSeparated_sound (hr : Reads F d r) (hclose : close.toNat < 0x80)
    (h : readSeparated r close place fuel (Cursor.at pos cs) = .ok (ys, c')) :
    ∃ xs inner rest pos', cs = inner ++ close :: rest ∧ Separated F.Writes xs inner ∧
      (∀ x ∈ xs, F.Fits d x) ∧ (∀ x ∈ xs, F.Finite x) ∧ xs.map F.meaning = ys ∧
      c' = Cursor.at pos' rest := by
  induction fuel generalizing pos cs ys with
  | zero => cases h
  | succ fuel ih =>
    cases hel : r (Cursor.at pos cs) with
    | error e => simp only [readSeparated, hel] at h; cases h
    | ok p =>
      obtain ⟨y, c₁⟩ := p
      obtain ⟨x, text, more, pos₁, rfl, hw, hfits, hfin, rfl, rfl⟩ := hr.sound hel
      obtain ⟨after, rest, rfl, ha, hrest, -⟩ := skipBlank_at pos₁ more
      obtain ⟨pos₂, hnext⟩ := readSeparated_next place fuel hclose hel ha hrest
      rw [hnext] at h
      split at h
      · next hcomma =>
        obtain ⟨tl, rfl⟩ := eq_cons_of_head? hcomma
        split at h
        · cases h
        · next hmore =>
          cases h
          obtain ⟨xs, inner, rest, pos', htl, hsep, hall, hfinAll, rfl, rfl⟩ := ih hmore
          rw [List.tail_cons] at htl
          subst htl
          refine ⟨x :: xs, text ++ after ++ ',' :: inner, rest, pos', ?_,
            ⟨text, after, _, rfl, hw, ha, .inr ⟨inner, rfl, hsep⟩⟩,
            List.forall_mem_cons.mpr ⟨hfits, hall⟩, List.forall_mem_cons.mpr ⟨hfin, hfinAll⟩,
            rfl, rfl⟩
          simp only [List.append_assoc, List.cons_append]
      · split at h
        · next hc =>
          obtain ⟨tl, rfl⟩ := eq_cons_of_head? hc
          cases h
          exact ⟨[x], text ++ after, tl, pos₂, by rw [List.append_assoc],
            ⟨text, after, [], by rw [List.append_nil], hw, ha, .inl ⟨rfl, rfl⟩⟩,
            by simpa using hfits, by simpa using hfin, rfl, rfl⟩
        · cases h

theorem length_le_of_separated {W : α → List Char → Prop} (h : Separated W xs inner) :
    xs.length ≤ inner.length + 1 := by
  induction xs generalizing inner with
  | nil => exact Nat.zero_le _
  | cons x xs ih =>
    obtain ⟨text, after, rest, rfl, _, _, ⟨rfl, rfl⟩ | ⟨more, rfl, hmore⟩⟩ := h
    · simp
    · have := ih hmore
      simp only [List.length_append, List.length_cons]
      omega

/-- A list is read if each element in it is, and otherwise fails as one of them does. -/
theorem readSeparated_outcome {W : α → List Char → Prop} {P : α → β → Prop}
    {Q : α → DecodeError → Prop} (place : Place) (pos : Nat) (rest : List Char)
    (hclose : Stops close) (hne : close ≠ ',') (hb : isBlank close = false)
    (hascii : close.toNat < 0x80) (h : Separated W xs inner) (hfuel : xs.length ≤ fuel)
    (hr : ∀ x ∈ xs, ∀ (pos) {text rest}, W x text → EndsNumber rest →
      (∃ y pos', r (Cursor.at pos (text ++ rest)) = .ok (y, Cursor.at pos' rest) ∧ P x y) ∨
        ∃ e, r (Cursor.at pos (text ++ rest)) = .error e ∧ Q x e) :
    (∃ ys pos', readSeparated r close place fuel (Cursor.at pos (inner ++ close :: rest)) =
        .ok (ys, Cursor.at pos' rest) ∧ List.Forall₂ P xs ys) ∨
      ∃ x ∈ xs, ∃ e, readSeparated r close place fuel (Cursor.at pos (inner ++ close :: rest)) =
        .error e ∧ Q x e := by
  induction xs generalizing inner fuel pos with
  | nil => exact h.elim
  | cons x xs ih =>
    obtain ⟨text, after, more, rfl, hw, ha, hmore⟩ := h
    obtain ⟨hx, hxs⟩ := List.forall_mem_cons.mp hr
    obtain ⟨fuel, rfl⟩ := Nat.exists_eq_add_of_le' (Nat.lt_of_lt_of_le (Nat.succ_pos _) hfuel)
    have hstop : ∃ c tl, more ++ close :: rest = c :: tl ∧ Stops c ∧ isBlank c = false := by
      rcases hmore with ⟨_, rfl⟩ | ⟨tl, rfl, _⟩
      · exact ⟨close, rest, rfl, hclose, hb⟩
      · exact ⟨',', _, rfl, .inr (.inl rfl), by decide⟩
    obtain ⟨c, tl, hctl, hc, hcb⟩ := hstop
    have hends : EndsNumber (after ++ (more ++ close :: rest)) :=
      endsNumber_blank ha (hctl ▸ endsNumber_cons hc)
    rw [List.append_assoc, List.append_assoc]
    rcases hx pos hw hends with ⟨y, pos₁, hel, hy⟩ | ⟨e, hel, he⟩
    · obtain ⟨pos₂, hnext⟩ := readSeparated_next place fuel hascii hel ha
        (by rw [hctl]; simpa using hcb)
      rw [hnext]
      rcases hmore with ⟨rfl, rfl⟩ | ⟨tl', rfl, hsep⟩
      · have hcomma : ¬ ([] ++ close :: rest).head? = some ',' := fun h => hne (Option.some.inj h)
        have hlast : ([] ++ close :: rest).head? = some close := rfl
        rw [if_neg hcomma, if_pos hlast]
        exact .inl ⟨[y], pos₂, rfl, .cons hy .nil⟩
      · have hcomma : (',' :: tl' ++ close :: rest).head? = some ',' := rfl
        rw [if_pos hcomma, List.cons_append, List.tail_cons]
        rcases ih pos₂ hsep (Nat.le_of_succ_le_succ hfuel) hxs with
          ⟨ys, pos', h, hys⟩ | ⟨x', hmem, e, h, he⟩
        · exact .inl ⟨y :: ys, pos', by simp only [h], .cons hy hys⟩
        · exact .inr ⟨x', List.mem_cons_of_mem _ hmem, e, by simp only [h], he⟩
    · exact .inr ⟨x, List.mem_cons_self, e, by simp only [readSeparated, hel], he⟩

/-- A list is read if all of it fits, and it is too deep if one element is. -/
theorem readSeparated_append (place : Place) (pos : Nat) (rest : List Char) (hr : Reads F d r)
    (hclose : Stops close) (hne : close ≠ ',') (hb : isBlank close = false)
    (hascii : close.toNat < 0x80) (h : Separated F.Writes xs inner) (hfin : ∀ x ∈ xs, F.Finite x)
    (hfuel : xs.length ≤ fuel) :
    ((∀ x ∈ xs, F.Fits d x) → ∃ pos', readSeparated r close place fuel
        (Cursor.at pos (inner ++ close :: rest)) = .ok (xs.map F.meaning, Cursor.at pos' rest)) ∧
      ((¬ ∀ x ∈ xs, F.Fits d x) → ∃ off, readSeparated r close place fuel
        (Cursor.at pos (inner ++ close :: rest)) = .error ⟨.tooDeep, off⟩) := by
  have outcome := readSeparated_outcome (P := fun x y => F.Fits d x ∧ F.meaning x = y)
    (Q := fun x e => ¬ F.Fits d x ∧ ∃ off, e = ⟨.tooDeep, off⟩)
    place pos rest hclose hne hb hascii h hfuel fun x hx pos text rest hw hends => by
      by_cases hfits : F.Fits d x
      · obtain ⟨pos', hel⟩ := hr.fits pos hw (hfin x hx) hends hfits
        exact .inl ⟨_, pos', hel, hfits, rfl⟩
      · obtain ⟨off, hel⟩ := hr.deep pos hw (hfin x hx) hends hfits
        exact .inr ⟨_, hel, hfits, off, rfl⟩
  rcases outcome with ⟨ys, pos', hread, hall⟩ | ⟨x, hx, _, hread, hdeep, off, rfl⟩
  · obtain ⟨hfits, hmeaning⟩ := (List.forall₂_and_left xs ys).mp hall
    have hys : xs.map F.meaning = ys :=
      List.forall₂_eq_eq_eq ▸ List.forall₂_map_left_iff.mpr hmeaning
    exact ⟨fun _ => ⟨pos', hys ▸ hread⟩, fun h => absurd hfits h⟩
  · exact ⟨fun h => absurd (h x hx) hdeep, fun _ => ⟨off, hread⟩⟩

end

/-! ## Lists in brackets -/

def Closing (c : Char) : Prop := c = ']' ∨ c = '\x7d'

section

variable {c : Char}

theorem Closing.stops (h : Closing c) : Stops c := h.elim (.inr ∘ .inr ∘ .inl) (.inr ∘ .inr ∘ .inr)

theorem Closing.ne_comma (h : Closing c) : c ≠ ',' := by rcases h with rfl | rfl <;> decide

theorem Closing.not_blank (h : Closing c) : isBlank c = false := by
  rcases h with rfl | rfl <;> decide

theorem Closing.ascii (h : Closing c) : c.toNat < 0x80 := by rcases h with rfl | rfl <;> decide

end

def readList (r : Reader β) (close : Char) (place : Place) : Reader (List β) := fun c =>
  let c := skipBlank c
  if c.peek = some (byte close) then .ok ([], c.step)
  else readSeparated r close place (c.rest.length + 1) c

theorem readArray_eq (item : Reader Tree) :
    readArray item = mapRead .array (readList item ']' .afterElement) := by
  funext c
  simp only [readArray, mapRead, readList, readItems_eq]
  by_cases h : (skipBlank c).peek = some (byte ']')
  · simp only [if_pos h]
  · cases readSeparated item ']' .afterElement ((skipBlank c).rest.length + 1) (skipBlank c) <;>
      simp only [if_neg h]

theorem readObject_eq (item : Reader Tree) :
    readObject item = mapRead (fun ms => .object (Dictionary.ofList ms))
      (readList (readMember item) '\x7d' .afterMember) := by
  funext c
  simp only [readObject, mapRead, readList, readMembers_eq]
  by_cases h : (skipBlank c).peek = some (byte '\x7d')
  · simp only [if_pos h, Dictionary.ofList, List.foldl_nil]
  · cases readSeparated (readMember item) '\x7d' .afterMember ((skipBlank c).rest.length + 1)
      (skipBlank c) <;> simp only [if_neg h]

/-- Lists of things, closed by a bracket. -/
def Form.list (F : Form α β) (close : Char) : Form (List α) (List β) where
  Writes xs cs := ∃ inner, cs = inner ++ [close] ∧
    ((xs = [] ∧ Blank inner) ∨ Separated F.Writes xs inner)
  meaning xs := xs.map F.meaning
  Fits d xs := ∀ x ∈ xs, F.Fits d x
  Finite xs := ∀ x ∈ xs, F.Finite x

section

variable {F : Form α β} {d : Nat} {r : Reader β} {close : Char} {place : Place} {pos : Nat}
  {inner rest : List Char} {xs : List α}

theorem Form.Trims.separated_lead (hF : F.Trims) {front : List Char} (hf : Blank front)
    (h : Separated F.Writes xs inner) : Separated F.Writes xs (front ++ inner) := by
  cases xs with
  | nil => exact h.elim
  | cons x xs =>
    obtain ⟨text, after, more, rfl, hw, ha, hmore⟩ := h
    refine ⟨front ++ text, after, more, ?_, hF.lead hf hw, ha, hmore⟩
    simp only [List.append_assoc]

/-- Behind its white space a list begins with neither white space nor a bracket that closes it. -/
theorem Form.Trims.separated_core (hF : F.Trims) (h : Separated F.Writes xs inner) :
    ∃ front c tl, inner = front ++ c :: tl ∧ Blank front ∧ isBlank c = false ∧ ¬ Closing c ∧
      Separated F.Writes xs (c :: tl) := by
  cases xs with
  | nil => exact h.elim
  | cons x xs =>
    obtain ⟨text, after, more, rfl, hw, ha, hmore⟩ := h
    obtain ⟨front, c, tl, rfl, hf, hb, hc, hc', hw⟩ := hF.core hw
    refine ⟨front, c, tl ++ after ++ more, by simp, hf, hb, fun h => h.elim hc hc', ?_⟩
    exact ⟨c :: tl, after, more, rfl, hw, ha, hmore⟩

theorem readList_empty (hclose : Closing close) (hb : Blank inner) :
    ∃ pos', readList r close place (Cursor.at pos (inner ++ close :: rest)) =
      .ok ([], Cursor.at pos' rest) := by
  refine ⟨pos + inner.length + 1, ?_⟩
  have hhead : ∀ c ∈ (close :: rest).head?, isBlank c = false := by simpa using hclose.not_blank
  have hskip := skipBlank_append pos hb hhead
  have hp : (Cursor.at (pos + inner.length) (close :: rest)).peek = some (byte close) :=
    (peek_eq_byte hclose.ascii).mpr rfl
  simp only [readList, hskip, if_pos hp, step_ascii hclose.ascii]

/-- A list with something in it, behind its white space. -/
theorem readList_core (r : Reader β) (place : Place) (pos : Nat) (tl : List Char)
    (hclose : Closing close) {front : List Char} {c : Char} (hf : Blank front)
    (hb : isBlank c = false) (hc : ¬ Closing c) :
    ∃ pos' fuel, tl.length < fuel ∧ readList r close place (Cursor.at pos (front ++ c :: tl)) =
      readSeparated r close place fuel (Cursor.at pos' (c :: tl)) := by
  have hhead : ∀ c' ∈ (c :: tl).head?, isBlank c' = false := by simpa using hb
  have hskip := skipBlank_append pos hf hhead
  have hp : ¬ (Cursor.at (pos + front.length) (c :: tl)).peek = some (byte close) := by
    rw [peek_eq_byte hclose.ascii]
    intro h
    exact hc (Option.some.inj h ▸ hclose)
  refine ⟨pos + front.length, _, ?_, by simp only [readList, hskip, if_neg hp]; rfl⟩
  have := length_le_ofChars (c :: tl)
  rw [List.length_cons] at this
  rw [at_rest]
  omega

/-- A list is closed at once, or read as the list that stands behind the white space. -/
theorem readList_written (r : Reader β) (place : Place) (pos : Nat) (rest : List Char)
    (hF : F.Trims) (hclose : Closing close) {text : List Char}
    (hw : (F.list close).Writes xs text) :
    (xs = [] ∧ ∃ pos', readList r close place (Cursor.at pos (text ++ rest)) =
        .ok ([], Cursor.at pos' rest)) ∨
      ∃ pos' fuel inner, xs.length ≤ fuel ∧ Separated F.Writes xs inner ∧
        readList r close place (Cursor.at pos (text ++ rest)) =
          readSeparated r close place fuel (Cursor.at pos' (inner ++ close :: rest)) := by
  obtain ⟨inner, rfl, ⟨rfl, hb⟩ | hsep⟩ := hw
  · rw [List.append_assoc]
    exact .inl ⟨rfl, readList_empty hclose hb⟩
  · obtain ⟨front, c, tl, rfl, hf, hb, hc, hsep⟩ := hF.separated_core hsep
    obtain ⟨pos₁, fuel, hfuel, heq⟩ := readList_core r place pos (tl ++ close :: rest)
      hclose hf hb hc
    have hlen := length_le_of_separated hsep
    rw [List.length_append, List.length_cons] at hfuel
    rw [List.length_cons] at hlen
    refine .inr ⟨pos₁, fuel, c :: tl, by omega, hsep, ?_⟩
    simp only [List.append_assoc, List.cons_append, List.nil_append] at heq ⊢
    exact heq

theorem readList_append (hF : F.Trims) (hr : Reads F d r) (hclose : Closing close)
    {text : List Char} (hw : (F.list close).Writes xs text) (hfin : (F.list close).Finite xs) :
    ((F.list close).Fits d xs → ∃ pos', readList r close place (Cursor.at pos (text ++ rest)) =
        .ok ((F.list close).meaning xs, Cursor.at pos' rest)) ∧
      (¬ (F.list close).Fits d xs → ∃ off, readList r close place (Cursor.at pos (text ++ rest)) =
        .error ⟨.tooDeep, off⟩) := by
  rcases readList_written r place pos rest hF hclose hw with
    ⟨rfl, h⟩ | ⟨pos', fuel, inner, hfuel, hsep, heq⟩
  · exact ⟨fun _ => h, fun h => absurd (by simp [Form.list]) h⟩
  · rw [heq]
    exact readSeparated_append place pos' rest hr hclose.stops hclose.ne_comma hclose.not_blank
      hclose.ascii hsep hfin hfuel

theorem reads_list (place : Place) (hF : F.Trims) (hr : Reads F d r) (hclose : Closing close) :
    Reads (F.list close) d (readList r close place) := by
  constructor
  · intro pos cs y c' h
    obtain ⟨front, rest, rfl, hf, hrest, hskip⟩ := skipBlank_at pos cs
    simp only [readList, hskip] at h
    split at h
    · next hp =>
      rw [peek_eq_byte hclose.ascii] at hp
      obtain ⟨tl, rfl⟩ := eq_cons_of_head? hp
      rw [step_ascii hclose.ascii] at h
      cases h
      exact ⟨[], front ++ [close], tl, _, by simp, ⟨front, rfl, .inl ⟨rfl, hf⟩⟩,
        by simp [Form.list], by simp [Form.list], rfl, rfl⟩
    · obtain ⟨xs, inner, rest, pos', rfl, hsep, hfits, hfin, hmean, rfl⟩ :=
        readSeparated_sound hr hclose.ascii h
      exact ⟨xs, front ++ inner ++ [close], rest, pos', by simp,
        ⟨front ++ inner, rfl, .inr (hF.separated_lead hf hsep)⟩, hfits, hfin, hmean, rfl⟩
  · intro pos xs text rest hw hfin _ hfits
    exact (readList_append hF hr hclose hw hfin).1 hfits
  · intro pos xs text rest hw hfin _ hfits
    exact (readList_append hF hr hclose hw hfin).2 hfits

end

end ScriptServer.Json
