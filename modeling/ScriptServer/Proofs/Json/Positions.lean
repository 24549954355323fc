import ScriptServer.Proofs.Json.Scanning

/-!
# The positions of failures

Lists, members and values walk along their languages, and every document is passed. So a text that
is rejected is rejected at the right place (`decode_error_exact`): up to the byte that is reported
it is the beginning of a JSON text, and with this byte it is not.
-/

namespace ScriptServer.Json

open Document

variable {α β : Type} {F : Form α β} {r : Reader β} {item : Reader Tree} {d pos : Nat}
  {close : Char} {place : Place} {cs text rest : List Char}

/-! ## Lists -/

/-- Reads things up to the closing bracket. There are no more of them than bytes. -/
def readMany (r : Reader β) (close : Char) (place : Place) : Reader (List β) := fun c =>
  readSeparated r close place (c.rest.length + 1) c

/-- Reads what follows a thing in a list, and `more` after a comma. -/
def readNext (more : Reader (List β)) (close : Char) (place : Place) (x : β) : Reader (List β) :=
  fun c =>
    if c.peek = some (byte ',') then mapRead (x :: ·) more c.step
    else if c.peek = some (byte close) then .ok ([x], c.step)
    else .error (c.unexpected place)

/-- Reads a thing in a list and what follows it. -/
def readThing (r : Reader β) (more : Reader (List β)) (close : Char) (place : Place) :
    Reader (List β) :=
  andThen r fun x => andThen blank fun _ => readNext more close place x

/-- What stands behind the bracket that opens a list with something in it. -/
def Listed (F : Form α β) (close : Char) (t : List Char) : Prop :=
  ∃ xs inner, t = inner ++ [close] ∧ Separated F.Writes xs inner

def TextOf (F : Form α β) (t : List Char) : Prop := ∃ x, F.Writes x t

theorem readSeparated_succ (r : Reader β) (close : Char) (place : Place) (fuel : Nat) :
    readSeparated r close place (fuel + 1) =
      readThing r (readSeparated r close place fuel) close place := by
  funext c
  simp only [readSeparated, readThing, andThen, blank, readNext, mapRead]
  cases r c with
  | error e => rfl
  | ok p =>
    cases hmore : readSeparated r close place fuel (skipBlank p.2).step <;> simp only [hmore]

/-- What follows a comma is shorter than the list. -/
theorem readThing_congr {more more' : Reader (List β)} (hr : ∀ pos cs, Walks (TextOf F) r pos cs)
    (h : ∀ p tl, tl.length < cs.length → more (Cursor.at p tl) = more' (Cursor.at p tl)) :
    readThing r more close place (Cursor.at pos cs) =
      readThing r more' close place (Cursor.at pos cs) := by
  simp only [readThing, andThen, blank, readNext]
  cases hread : r (Cursor.at pos cs) with
  | error e => rfl
  | ok p =>
    obtain ⟨x, c⟩ := p
    obtain ⟨text, rest, rfl, -, again⟩ := (hr pos cs).goes hread
    rw [again rest (.refl _)] at hread
    cases hread
    obtain ⟨before, rest, rfl, -, -, hskip⟩ := skipBlank_at (pos + width text) rest
    simp only [hskip, mapRead]
    by_cases hcomma : rest.head? = some ','
    · obtain ⟨tl, rfl⟩ := eq_cons_of_head? hcomma
      rw [step_ascii (by decide), h _ _ (by simp only [List.length_append, List.length_cons]; omega)]
    · have hp : ¬ (Cursor.at (pos + width text + before.length) rest).peek = some (byte ',') := by
        rw [peek_eq_byte (by decide)]
        exact hcomma
      rw [if_neg hp, if_neg hp]

/-- More fuel than there are characters changes nothing. -/
theorem readSeparated_fuel {fuel fuel' : Nat} (hr : ∀ pos cs, Walks (TextOf F) r pos cs)
    (h : cs.length < fuel) (h' : cs.length < fuel') :
    readSeparated r close place fuel (Cursor.at pos cs) =
      readSeparated r close place fuel' (Cursor.at pos cs) := by
  induction fuel generalizing fuel' pos cs with
  | zero => cases h
  | succ fuel ih =>
    obtain ⟨fuel', rfl⟩ := Nat.exists_eq_succ_of_ne_zero (Nat.ne_of_gt (Nat.zero_lt_of_lt h'))
    rw [readSeparated_succ, readSeparated_succ]
    exact readThing_congr hr fun p tl hlt => ih (by omega) (by omega)

theorem readMany_eq (hr : ∀ pos cs, Walks (TextOf F) r pos cs) (pos : Nat) (cs : List Char) :
    readMany r close place (Cursor.at pos cs) =
      readThing r (readMany r close place) close place (Cursor.at pos cs) := by
  have hlen := length_le_ofChars cs
  rw [readMany, at_rest, readSeparated_succ]
  refine readThing_congr hr fun p tl hlt => readSeparated_fuel hr (by omega) ?_
  exact Nat.lt_succ_of_le (length_le_ofChars tl)

/-- What stands behind a thing in a list: the bracket, or a comma and more things. -/
def ListTail (F : Form α β) (close : Char) (t : List Char) : Prop :=
  t = [close] ∨ ∃ u, t = ',' :: u ∧ Listed F close u

theorem walks_next {more : Reader (List β)} (place : Place) (hclose : Closing close) (x : β)
    (hmore : ∀ tl, rest = ',' :: tl → Walks (Listed F close) more (pos + 1) tl) :
    Walks (ListTail F close) (readNext more close place x) pos rest := by
  refine .step_or (by decide) (fun tl htl => (hmore tl htl).mapRead (x :: ·)) ?_
    fun t ht => .inr ⟨t, rfl, ht⟩
  refine .step_or hclose.ascii (fun tl _ => Walks.give [x] (pos + 1) tl)
    (Walks.refuse ⟨[close], .inl rfl⟩ place pos rest) ?_
  rintro _ rfl
  exact .inl rfl

theorem walks_many (place : Place) (hr : ∀ pos cs, Walks (TextOf F) r pos cs)
    (hclose : Closing close) (pos : Nat) (cs : List Char) :
    Walks (Listed F close) (readMany r close place) pos cs := by
  induction hn : cs.length using Nat.strongRecOn generalizing pos cs with
  | _ n ih =>
  have htail : ListTail F close [close] := .inl rfl
  have hthing : Walks (Chain (TextOf F) (Chain Blank (ListTail F close)))
      (readThing r (readMany r close place) close place) pos cs := by
    refine (hr pos cs).andThen ⟨_, [], _, rfl, blank_nil, htail⟩ fun x {text rest} hcs _ => ?_
    refine (walks_blank _ rest).andThen ⟨_, htail⟩ fun _ {before rest'} hrest _ => ?_
    refine walks_next place hclose x fun tl htl => ih _ ?_ _ tl rfl
    rw [← hn, hcs, hrest, htl]
    simp only [List.length_append, List.length_cons]
    omega
  refine (hthing.congr fun cs' _ => readMany_eq hr pos cs').mono ?_
  rintro _ ⟨text, _, rfl, ⟨x, hx⟩, after, _, rfl, hafter, rfl | ⟨_, rfl, xs, inner, rfl, hsep⟩⟩
  · exact ⟨[x], text ++ after, by rw [List.append_assoc], text, after, [],
      by rw [List.append_nil], hx, hafter, .inl ⟨rfl, rfl⟩⟩
  · exact ⟨x :: xs, text ++ after ++ ',' :: inner, by simp, text, after, _, rfl, hx, hafter,
      .inr ⟨inner, rfl, hsep⟩⟩

/-- Reads a list behind the white space that follows its opening bracket. -/
def readFirst (r : Reader β) (close : Char) (place : Place) : Reader (List β) := fun c =>
  if c.peek = some (byte close) then .ok ([], c.step) else readMany r close place c

theorem walks_first (place : Place) (hr : ∀ pos cs, Walks (TextOf F) r pos cs)
    (hclose : Closing close) (pos : Nat) (cs : List Char) :
    Walks (fun t => t = [close] ∨ Listed F close t) (readFirst r close place) pos cs := by
  refine .step_or hclose.ascii (fun tl _ => Walks.give [] (pos + 1) tl)
    ((walks_many place hr hclose pos cs).mono fun t ht => .inr ht) ?_
  rintro _ rfl
  exact .inl rfl

theorem walks_list (place : Place) (hF : F.Trims) (hr : ∀ pos cs, Walks (TextOf F) r pos cs)
    (hclose : Closing close) (pos : Nat) (cs : List Char) :
    Walks (TextOf (F.list close)) (readList r close place) pos cs := by
  refine ((Walks.trim (walks_first place hr hclose) ⟨[close], .inl rfl⟩ pos cs).congr
    fun cs' _ => rfl).mono ?_
  rintro _ ⟨before, _, rfl, hb, rfl | ⟨xs, inner, rfl, hsep⟩⟩
  · exact ⟨[], before, rfl, .inl ⟨rfl, hb⟩⟩
  · exact ⟨xs, before ++ inner, by rw [List.append_assoc], .inr (hF.separated_lead hb hsep)⟩

/-! ## Members -/

def readAfterKey (item : Reader Tree) (key : String) : Reader (String × Tree) := fun c =>
  if c.peek = some (byte ':') then mapRead (key, ·) item c.step else .error (c.unexpected .afterKey)

def readKeyed (item : Reader Tree) : Reader (String × Tree) := fun c =>
  if c.peek = some (byte '"') then
    andThen readString (fun key => andThen blank fun _ => readAfterKey item key) c
  else .error (c.unexpected .key)

theorem readMember_eq (item : Reader Tree) :
    readMember item = andThen blank fun _ => readKeyed item := by
  funext c
  simp only [readMember, andThen, blank, readKeyed]
  by_cases hq : (skipBlank c).peek = some (byte '"')
  · rw [if_pos hq, if_pos hq]
    cases readString (skipBlank c) with
    | error e => rfl
    | ok p =>
      simp only [readAfterKey, mapRead]
      cases item (skipBlank p.2).step <;> rfl
  · rw [if_neg hq, if_neg hq]

def ColonValue (t : List Char) : Prop := ∃ u, t = ':' :: u ∧ TextOf valueForm u

theorem exists_colonValue : ∃ t, ColonValue t :=
  ⟨_, "null".toList, rfl, .null, [], _, rfl, blank_nil, rfl⟩

theorem walks_afterKey (hitem : ∀ pos cs, Walks (TextOf valueForm) item pos cs) (key : String)
    (pos : Nat) (cs : List Char) : Walks ColonValue (readAfterKey item key) pos cs :=
  .step_or (by decide) (fun tl _ => (hitem (pos + 1) tl).mapRead (key, ·))
    (Walks.refuse exists_colonValue .afterKey pos cs) fun t ht => ⟨t, rfl, ht⟩

def KeyValue : List Char → Prop := Chain IsQuoted (Chain Blank ColonValue)

theorem exists_keyValue : ∃ t, KeyValue t :=
  have ⟨t, ht⟩ := exists_colonValue
  ⟨_, quoted [], _, rfl, ⟨[], rfl, by simp⟩, [], t, rfl, blank_nil, ht⟩

theorem walks_keyed (hitem : ∀ pos cs, Walks (TextOf valueForm) item pos cs) (pos : Nat)
    (cs : List Char) : Walks KeyValue (readKeyed item) pos cs := by
  obtain ⟨t, ht⟩ := exists_colonValue
  refine .ite (by decide) (fun _ => ?_) fun _ => .refuse exists_keyValue .key pos cs
  exact (walks_string pos cs).andThen ⟨t, [], t, rfl, blank_nil, ht⟩ fun key _ _ _ _ =>
    Walks.trim (walks_afterKey hitem key) ⟨t, ht⟩ _ _

theorem walks_member (hitem : ∀ pos cs, Walks (TextOf valueForm) item pos cs) (pos : Nat)
    (cs : List Char) : Walks (TextOf memberForm) (readMember item) pos cs := by
  rw [readMember_eq]
  refine (Walks.trim (walks_keyed hitem) exists_keyValue pos cs).mono ?_
  rintro _ ⟨before, _, rfl, hb, _, _, rfl, ⟨key, rfl, hkey⟩, left, _, rfl, hl, value, rfl, doc, hw⟩
  exact ⟨(key, doc), before, left, value, rfl, hb, hkey, hl, hw⟩

/-! ## Values -/

def readOther : Reader Tree := fun c =>
  match c.peek with
  | none => .error (c.unexpected .value)
  | some b => if b = byte '-' ∨ isDigitByte b = true then readNumber c
    else .error (c.unexpected .value)

def readCore (d : Nat) : Reader Tree := fun c =>
  if c.peek = some (byte 'n') then readLiteral "null" .null c
  else if c.peek = some (byte 't') then readLiteral "true" (.bool true) c
  else if c.peek = some (byte 'f') then readLiteral "false" (.bool false) c
  else if c.peek = some (byte '"') then mapRead .string readString c
  else if c.peek = some (byte '[') then readArray (readValue d) c.step
  else if c.peek = some (byte '\x7b') then readObject (readValue d) c.step
  else readOther c

theorem readValue_eq (d : Nat) : readValue (d + 1) = andThen blank fun _ => readCore d := by
  funext c
  simp only [readValue, andThen, blank, readCore, readOther]
  cases (skipBlank c).peek with
  | none => simp only [reduceCtorEq, ↓reduceIte]
  | some b =>
    simp only [Option.some.injEq]
    cases hs : readString (skipBlank c) <;> simp only [mapRead, hs]

/-- What writes a document. -/
def Spelled (t : List Char) : Prop := ∃ doc : Document, doc.Spells t

theorem walks_other (pos : Nat) (cs : List Char) : Walks Spelled readOther pos cs := by
  have hnull : ∃ t, Spelled t := ⟨_, .null, rfl⟩
  cases cs with
  | nil =>
    refine (Walks.refuse hnull .value pos []).congr fun cs' hcs => ?_
    rw [hcs.eq_nil]
    rfl
  | cons c cs =>
    by_cases hc : lead c = byte '-' ∨ isDigitByte (lead c) = true
    · refine ((walks_number pos (c :: cs)).congr fun cs' hcs => ?_).mono ?_
      · simp only [readOther, hcs.peek pos, peek_cons, if_pos hc]
      · rintro _ ⟨l, rfl, hl⟩
        exact ⟨.number l, hl, rfl⟩
    · refine (Walks.refuse hnull .value pos (c :: cs)).congr fun cs' hcs => ?_
      simp only [readOther, hcs.peek pos, peek_cons, if_neg hc]

theorem walks_core (hd : ∀ pos cs, Walks (TextOf valueForm) (readValue d) pos cs) (pos : Nat)
    (cs : List Char) : Walks Spelled (readCore d) pos cs := by
  have hword : ∀ {word : String} (doc : Document), doc.Spells word.toList →
      ∀ t, t = word.toList → Spelled t := fun doc h t ht => ⟨doc, ht ▸ h⟩
  -- one reader for each first byte; what it has read writes a document of its kind
  refine .ite (by decide) (fun _ => (walks_literal _ (by decide) _ _).mono
    (hword .null rfl)) fun _ => ?_
  refine .ite (by decide) (fun _ => (walks_literal _ (by decide) _ _).mono
    (hword (.bool true) rfl)) fun _ => ?_
  refine .ite (by decide) (fun _ => (walks_literal _ (by decide) _ _).mono
    (hword (.bool false) rfl)) fun _ => ?_
  refine .ite (by decide) (fun _ => ((walks_string _ _).mapRead _).mono ?_) fun _ => ?_
  · rintro _ ⟨ps, rfl, hps⟩
    exact ⟨.string ps, hps, rfl⟩
  rw [readArray_eq, readObject_eq]
  refine .step_or (by decide) (fun tl _ =>
    (walks_list .afterElement valueForm_trims hd (.inl rfl) _ tl).mapRead _) ?_
      fun t ⟨items, hw⟩ => ⟨.array items, spells_array.mpr ⟨t, rfl, hw⟩⟩
  exact .step_or (by decide) (fun tl _ =>
    (walks_list .afterMember memberForm_trims (walks_member hd) (.inr rfl) _ tl).mapRead _)
      (walks_other pos cs) fun t ⟨members, hw⟩ => ⟨.object members, spells_object.mpr ⟨t, rfl, hw⟩⟩

/-- A value is read as far as there are documents that begin so, or its depth is exceeded. -/
theorem walks_value (d pos : Nat) (cs : List Char) :
    Walks (TextOf valueForm) (readValue d) pos cs := by
  induction d generalizing pos cs with
  | zero => exact .fail rfl (.limit trivial (Nat.le_add_right _ _))
  | succ d ih =>
    rw [readValue_eq]
    refine (Walks.trim (walks_core ih) ⟨_, .null, rfl⟩ pos cs).mono ?_
    rintro _ ⟨before, text, rfl, hb, doc, hs⟩
    exact ⟨doc, written_at hb hs⟩

/-! ## Passing documents -/

theorem passes_list {xs : List α} (place : Place) (pos : Nat) (rest : List Char) (hF : F.Trims)
    (hclose : Closing close) (hw : (F.list close).Writes xs text)
    (hr : ∀ (pos) {x text rest}, F.Writes x text → EndsNumber rest → Passes r pos text rest) :
    Passes (readList r close place) pos text rest := by
  rcases readList_written r place pos rest hF hclose hw with
    ⟨-, pos', h⟩ | ⟨pos', fuel, inner, hfuel, hsep, heq⟩
  · exact .inl ⟨_, _, h⟩
  · have outcome := readSeparated_outcome (P := fun _ _ => True) (Q := fun _ e => e.cause.Limit)
      place pos' rest hclose.stops hclose.ne_comma hclose.not_blank hclose.ascii hsep hfuel
      fun x _ pos text rest hw hends => (hr pos hw hends).imp
        (fun ⟨y, pos', h⟩ => ⟨y, pos', h, trivial⟩) id
    rw [Passes, heq]
    exact outcome.imp (fun ⟨ys, pos', h, _⟩ => ⟨ys, pos', h⟩) fun ⟨_, _, e, h⟩ => ⟨e, h⟩

theorem passes_member {m : List Piece × Document} (pos : Nat)
    (hitem : ∀ (pos) {doc text rest}, valueForm.Writes doc text → EndsNumber rest →
      Passes item pos text rest)
    (hw : memberForm.Writes m text) (hends : EndsNumber rest) :
    Passes (readMember item) pos text rest := by
  obtain ⟨before, left, value, rfl, hb, hkey, hl, hv⟩ := hw
  obtain ⟨pos₁, h⟩ := readMember_append item pos (value ++ rest) hb hkey hl
  simp only [Passes, List.append_assoc, List.cons_append]
  rcases hitem pos₁ hv hends with ⟨x, pos', hx⟩ | ⟨e, he, hlimit⟩
  · exact .inl ⟨_, pos', by rw [h, hx]⟩
  · exact .inr ⟨e, by rw [h, he], hlimit⟩

/-- Every document is passed, however deep it is and whatever its numbers are. -/
theorem passes_value (d pos : Nat) {doc : Document} (hw : valueForm.Writes doc text)
    (hends : EndsNumber rest) : Passes (readValue d) pos text rest := by
  induction d generalizing pos doc text rest with
  | zero => exact .inr ⟨_, rfl, trivial⟩
  | succ d ih =>
    obtain ⟨before, text, rfl, hb, hs⟩ := hw
    rw [Passes, List.append_assoc]
    cases doc with
    | array items =>
      obtain ⟨tl, rfl, hw⟩ := spells_array.mp hs
      have hlist := (passes_list .afterElement (pos + before.length + 1) rest valueForm_trims
        (.inl rfl) hw fun pos _ _ _ hw hends => ih pos hw hends).mapRead Tree.array
      rw [← readArray_eq] at hlist
      rw [List.cons_append, readValue_cons d pos '[' (tl ++ rest) hb (by decide)]
      exact hlist
    | object members =>
      obtain ⟨tl, rfl, hw⟩ := spells_object.mp hs
      have hlist := (passes_list .afterMember (pos + before.length + 1) rest memberForm_trims
        (.inr rfl) hw fun pos _ _ _ hm hends =>
          passes_member pos (fun pos _ _ _ hw hends => ih pos hw hends) hm hends).mapRead
          fun ms => Tree.object (Dictionary.ofList ms)
      rw [← readObject_eq] at hlist
      rw [List.cons_append, readValue_cons d pos '\x7b' (tl ++ rest) hb (by decide)]
      exact hlist
    | number l =>
      obtain ⟨hl, rfl⟩ := hs
      rw [readValue_number d pos rest hb hl, readNumber_of_skip hl (skipNumber_append hl hends)]
      by_cases hfin : l.value.isFinite = true
      · exact .inl ⟨_, _, by rw [if_pos hfin]⟩
      · exact .inr ⟨⟨.outOfRange (String.ofList l.text), _⟩, by rw [if_neg hfin], trivial⟩
    | _ =>
      obtain ⟨pos', h⟩ := readValue_flat d pos hb hs (by simp [Document.Finite, literals]) hends
        (fun _ h => by cases h) (fun _ h => by cases h)
      exact .inl ⟨_, pos', h⟩

/-! ## Texts -/

/-- Reads nothing, and that only at the end of the input. -/
def atEnd (t : Tree) : Reader Tree := fun c =>
  if c.rest.isEmpty then .ok (t, c) else .error ⟨.afterTopLevel, c.pos⟩

/-- Reads a value with white space around it that is the whole input. -/
def readText : Reader Tree :=
  andThen (readValue (maxDepth + 1)) fun t => andThen blank fun _ => atEnd t

def IsText (cs : List Char) : Prop := ∃ doc : Document, doc.IsTextOf cs

theorem decode_eq (text : String) : decode text = match readText (Cursor.at 0 text.toList) with
    | .error e => .error e
    | .ok (t, _) => .ok t := by
  simp only [decode, readText, andThen, blank, atEnd, Utf8.ofText, Cursor.at]
  cases readValue (maxDepth + 1) ⟨0, Utf8.ofChars text.toList⟩ with
  | error e => rfl
  | ok p =>
    simp only
    split <;> rfl

theorem walks_atEnd (t : Tree) (pos : Nat) (cs : List Char) :
    Walks (· = []) (atEnd t) pos cs := by
  cases cs with
  | nil =>
    refine .sure t [] rfl fun rest' hrest => ?_
    rw [hrest.eq_nil]
    rfl
  | cons c cs =>
    have hne : ∀ {cs'}, cs' ≠ [] →
        atEnd t (Cursor.at pos cs') = .error ⟨.afterTopLevel, pos⟩ := fun h => by
      rw [atEnd, at_rest, if_neg (by simpa using mt ofChars_eq_nil.mp h), at_pos]
    refine .fail (hne (List.cons_ne_nil _ _)) (.byte [] (c :: cs) rfl (List.cons_ne_nil _ _)
      ⟨[], rfl⟩ trivial rfl fun rest' hrest => hne ?_)
    rintro rfl
    cases hrest

theorem walks_text (pos : Nat) (cs : List Char) : Walks IsText readText pos cs := by
  refine ((walks_value (maxDepth + 1) pos cs).andThen ⟨[], [], [], rfl, blank_nil, rfl⟩
    fun t _ _ _ _ => Walks.trim (walks_atEnd t) ⟨[], rfl⟩ _ _).mono ?_
  rintro _ ⟨_, _, rfl, ⟨doc, before, text, rfl, hb, hs⟩, after, _, rfl, ha, rfl⟩
  exact ⟨doc, before, text, after, by rw [List.append_nil], hb, hs, ha⟩

theorem passes_text (h : IsText cs) : Passes readText 0 cs [] := by
  obtain ⟨doc, h⟩ := h
  obtain ⟨body, after, rfl, hw, ha⟩ := IsTextOf.written h
  have hends := endsNumber_blank ha endsNumber_nil
  rw [List.append_nil] at hends
  rw [Passes, List.append_nil]
  simp only [readText, andThen]
  rcases passes_value (maxDepth + 1) 0 hw hends with ⟨t, pos', h⟩ | ⟨e, h, he⟩
  · have hskip := skipBlank_append pos' ha
      (show ∀ c ∈ ([] : List Char).head?, isBlank c = false by simp)
    rw [List.append_nil] at hskip
    refine .inl ⟨t, pos' + after.length, ?_⟩
    simp only [h, blank, hskip]
    rfl
  · exact .inr ⟨e, by simp only [h], he⟩

/-! ## Messages -/

/-- The message says that a character is invalid. -/
def NamesCharacter (message : String) : Prop := "invalid character".toList <+: message.toList

/-- The message says that the text or a string in it is not finished. -/
def NamesEnd (message : String) : Prop :=
  message = "unexpected end of JSON input" ∨ message = "unterminated string literal"

/-- The message says that the text is too much for the decoder. -/
def NamesLimit (message : String) : Prop :=
  message = "exceeded max nesting depth" ∨ ∃ l, message = "number " ++ l ++ " out of range"

theorem head?_append_string {a : String} {c : Char} (s : String)
    (h : a.toList.head? = some c) : (a ++ s).toList.head? = some c := by
  rw [String.toList_append, List.head?_append, h]
  rfl

theorem namesCharacter_append {a : String} (s : String) (h : NamesCharacter a) :
    NamesCharacter (a ++ s) := by
  rw [NamesCharacter, String.toList_append]
  exact h.trans (List.prefix_append _ _)

/-- The first letters of the messages tell their kinds apart. -/
theorem NamesCharacter.head? {message : String} (h : NamesCharacter message) :
    message.toList.head? = some 'i' := by
  obtain ⟨tl, h⟩ := h
  rw [← h]
  rfl

theorem NamesEnd.head? {message : String} (h : NamesEnd message) :
    message.toList.head? = some 'u' := by
  rcases h with rfl | rfl <;> decide

variable {cause : Cause}

theorem Cause.AtByte.message (h : cause.AtByte) :
    NamesCharacter cause.message ∧ ¬ NamesEnd cause.message := by
  have hnames : NamesCharacter cause.message := by
    cases cause with
    | unexpectedByte b place =>
      exact namesCharacter_append _ (namesCharacter_append _ (namesCharacter_append _
        (by unfold NamesCharacter; decide)))
    | afterTopLevel => unfold NamesCharacter; decide
    | _ => exact h.elim
  exact ⟨hnames, fun hend => by cases hnames.head?.symm.trans hend.head?⟩

theorem Cause.AtEnd.message (h : cause.AtEnd) :
    NamesEnd cause.message ∧ ¬ NamesCharacter cause.message := by
  have hnames : NamesEnd cause.message := by
    cases cause with
    | unexpectedEnd => exact .inl rfl
    | unterminatedString => exact .inr rfl
    | _ => exact h.elim
  exact ⟨hnames, fun hchar => by cases hnames.head?.symm.trans hchar.head?⟩

theorem Cause.Limit.message (h : cause.Limit) : NamesLimit cause.message ∧
    ¬ NamesCharacter cause.message ∧ ¬ NamesEnd cause.message := by
  have hhead : cause.message.toList.head? = some 'e' ∨ cause.message.toList.head? = some 'n' := by
    cases cause with
    | tooDeep => exact .inl (by decide)
    | outOfRange l =>
      have hword : "number ".toList.head? = some 'n' := by decide
      exact .inr (head?_append_string _ (head?_append_string _ hword))
    | _ => exact h.elim
  refine ⟨?_, fun hchar => ?_, fun hend => ?_⟩
  · cases cause with
    | tooDeep => exact .inl rfl
    | outOfRange l => exact .inr ⟨l, rfl⟩
    | _ => exact h.elim
  · rcases hhead with hhead | hhead <;> cases hchar.head?.symm.trans hhead
  · rcases hhead with hhead | hhead <;> cases hend.head?.symm.trans hhead

theorem Cause.AtByte.not_limit (h : cause.AtByte) : ¬ cause.Limit := by
  cases cause <;> first | exact id | exact h.elim

theorem Cause.AtEnd.not_limit (h : cause.AtEnd) : ¬ cause.Limit := by
  cases cause <;> first | exact id | exact h.elim

/-- Bytes that are no text and numbers that are none are never met. -/
theorem not_invalid (h : cause.AtByte ∨ cause.AtEnd ∨ cause.Limit) :
    cause ≠ .invalidUtf8 ∧ ∀ l, cause ≠ .invalidNumber l := by
  constructor
  · rintro rfl
    exact h.elim id (·.elim id id)
  · rintro l rfl
    exact h.elim id (·.elim id id)

/-! ## The positions of failures -/

/-- Further bytes make a JSON text of these, of any depth and with any numbers. -/
def Extendable (bs : Bytes) : Prop := ∃ more cs, bs ++ more = Utf8.ofChars cs ∧ IsText cs

theorem Opens.extendable (h : Opens IsText cs) : Extendable (Utf8.ofChars cs) :=
  h.imp' Utf8.ofChars fun more hmore => ⟨cs ++ more, (Utf8.ofChars_append cs more).symm, hmore⟩

/-- What is no text is told from what is one by its failure, unless a limit is met. -/
theorem not_isText_of_error {e : DecodeError} (h : readText (Cursor.at 0 cs) = .error e)
    (he : ¬ e.cause.Limit) : ¬ IsText cs := by
  intro htext
  rcases passes_text htext with ⟨t, pos', hok⟩ | ⟨e', herr, hlimit⟩
  · rw [List.append_nil, h] at hok
    cases hok
  · rw [List.append_nil, h] at herr
    cases herr
    exact he hlimit

/-- The byte at which reading stops decides that no text begins so. -/
theorem not_extendable_of_again {front rest : List Char} {e : DecodeError} (hne : rest ≠ [])
    (he : ¬ e.cause.Limit)
    (again : ∀ rest', SameLead rest rest' → readText (Cursor.at 0 (front ++ rest')) = .error e) :
    ¬ Extendable ((Utf8.ofChars (front ++ rest)).take (width front + 1)) := by
  obtain ⟨c, tl, rfl⟩ := List.exists_cons_of_ne_nil hne
  obtain ⟨bs, hbs⟩ := exists_encode c
  rintro ⟨more, cs, heq, htext⟩
  rw [Utf8.ofChars_append, width, List.take_length_add_append, Utf8.ofChars_cons, hbs,
    List.append_assoc] at heq
  obtain ⟨rest', rfl, hrest'⟩ := Utf8.exists_append_of_ofChars heq
  refine not_isText_of_error (again rest' ?_) he htext
  cases rest' with
  | nil => cases hrest'
  | cons c' tl' =>
    obtain ⟨bs', hbs'⟩ := exists_encode c'
    rw [Utf8.ofChars_cons, hbs'] at hrest'
    exact congrArg some (List.cons.inj hrest').1

theorem decode_error {text : String} {e : DecodeError} (h : decode text = .error e) :
    readText (Cursor.at 0 text.toList) = .error e := by
  rw [decode_eq] at h
  split at h
  · next herr => rw [herr, Except.error.inj h]
  · cases h

/-- A text that is rejected is rejected at the right place. What is in front of an invalid character
is the beginning of a JSON text of some depth and with some numbers, and with the character's first
byte it is not. Where the end is reported the text is such a beginning, but no JSON text. Any other
failure is a limit of the decoder. -/
theorem decode_error_exact {text : String} {e : DecodeError} (h : decode text = .error e) :
    e.offset ≤ (Utf8.ofText text).length ∧
      (NamesCharacter e.message → e.offset < (Utf8.ofText text).length ∧
        Extendable ((Utf8.ofText text).take e.offset) ∧
        ¬ Extendable ((Utf8.ofText text).take (e.offset + 1))) ∧
      (NamesEnd e.message → Extendable (Utf8.ofText text) ∧ ¬ IsText text.toList) ∧
      (NamesCharacter e.message ∨ NamesEnd e.message ∨ NamesLimit e.message) ∧
      e.cause ≠ .invalidUtf8 ∧ ∀ l, e.cause ≠ .invalidNumber l := by
  have herr := decode_error h
  have hlen : (Utf8.ofText text).length = width text.toList := rfl
  rw [hlen, DecodeError.message]
  cases (walks_text 0 text.toList).halts herr with
  | byte front rest split more opens cause offset again =>
    obtain ⟨hnames, hend⟩ := cause.message
    have hpos := width_pos more
    rw [Nat.zero_add] at offset
    rw [Utf8.ofText, split, width_append, offset]
    refine ⟨by omega, fun _ => ⟨by omega, ?_, not_extendable_of_again more cause.not_limit again⟩,
      fun h => absurd h hend, .inl hnames, not_invalid (.inl cause)⟩
    rw [Utf8.ofChars_append, width, List.take_left]
    exact opens.extendable
  | ending cause offset opens =>
    obtain ⟨hnames, hchar⟩ := cause.message
    exact ⟨by omega, fun h => absurd h hchar,
      fun _ => ⟨opens.extendable, not_isText_of_error herr cause.not_limit⟩, .inr (.inl hnames),
      not_invalid (.inr (.inl cause))⟩
  | limit cause offset =>
    obtain ⟨hnames, hchar, hend⟩ := cause.message
    exact ⟨by omega, fun h => absurd h hchar, fun h => absurd h hend, .inr (.inr hnames),
      not_invalid (.inr (.inr cause))⟩

/-- Behind the first half of a pair a second escape is looked at, and its failure is exact too. -/
theorem decode_error_exact_second_half :
    decode "[\"\\ud83d\\u00x\"]" = .error ⟨.unexpectedByte (byte 'x') .hexEscape, 12⟩ ∧
      Extendable ((Utf8.ofText "[\"\\ud83d\\u00x\"]").take 12) ∧
      ¬ Extendable ((Utf8.ofText "[\"\\ud83d\\u00x\"]").take 13) := by
  have h : decode "[\"\\ud83d\\u00x\"]" =
      .error ⟨.unexpectedByte (byte 'x') .hexEscape, 12⟩ := by rfl
  obtain ⟨-, hcharacter, -⟩ := decode_error_exact h
  have hnames := @Cause.AtByte.message (.unexpectedByte (byte 'x') .hexEscape) trivial
  exact ⟨h, (hcharacter hnames.1).2⟩

end ScriptServer.Json
