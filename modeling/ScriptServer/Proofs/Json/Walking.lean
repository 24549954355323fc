import ScriptServer.Proofs.Json.Language

/-!
# Where a reader stops

A reader walks along a language `L` if all it reads is in `L` and it fails only where it has to:
what it has passed can still be completed to a text of `L`, and the byte at which it stops decides,
so that every input that goes on with this byte meets the same failure. Readers that are put
together of others walk along the languages that are put together alike. `Passes` is the converse
for one text: it is read, or a limit of the reader is met.
-/

namespace ScriptServer.Json

variable {α β : Type} {L M : List Char → Prop} {r r' : Reader α} {s : α → Reader β} {pos : Nat}
  {c d : Char} {cs cs' front rest rest' text : List Char} {place : Place} {e : DecodeError}

/-! ## Bytes of characters -/

theorem Blank.width (h : Blank cs) : width cs = cs.length :=
  width_of_ascii fun c hc => ascii_of_isBlank (h c hc)

/-- Both begin with the same byte, or both are empty. -/
def SameLead (cs cs' : List Char) : Prop := cs.head?.map lead = cs'.head?.map lead

theorem peek_at (pos : Nat) (cs : List Char) : (Cursor.at pos cs).peek = cs.head?.map lead := by
  cases cs with
  | nil => rfl
  | cons c cs => exact peek_cons

namespace SameLead

theorem refl (cs : List Char) : SameLead cs cs := rfl

theorem peek (h : SameLead cs cs') (pos : Nat) :
    (Cursor.at pos cs').peek = (Cursor.at pos cs).peek := by
  rw [peek_at, peek_at, h]

theorem append (h : SameLead cs cs') (front : List Char) :
    SameLead (front ++ cs) (front ++ cs') := by
  cases front with
  | nil => exact h
  | cons c front => exact rfl

theorem unexpected (h : SameLead cs cs') (pos : Nat) (place : Place) :
    (Cursor.at pos cs').unexpected place = (Cursor.at pos cs).unexpected place := by
  simp only [Cursor.unexpected, h.peek pos, at_pos]

theorem eq_nil (h : SameLead [] cs) : cs = [] := by
  cases cs with
  | nil => rfl
  | cons c cs => cases h

/-- What the first byte tells about the next character is the same. -/
theorem head {q : Char → Prop} (hq : ∀ {c c'}, lead c = lead c' → q c → q c')
    (h : SameLead cs cs') (hcs : ∀ c ∈ cs.head?, q c) : ∀ c ∈ cs'.head?, q c := by
  intro c' hc'
  obtain ⟨tl', rfl⟩ := eq_cons_of_head? hc'
  cases cs with
  | nil => cases h.eq_nil
  | cons c cs => exact hq (Option.some.inj h) (hcs c rfl)

end SameLead

/-! ## Where failures belong -/

def Cause.AtByte : Cause → Prop
  | .unexpectedByte .. | .afterTopLevel => True
  | _ => False

def Cause.AtEnd : Cause → Prop
  | .unexpectedEnd | .unterminatedString => True
  | _ => False

/-- What was read is right, but too much for the reader. -/
def Cause.Limit : Cause → Prop
  | .tooDeep | .outOfRange _ => True
  | _ => False

/-- The characters can be completed to a text of the language. -/
def Opens (L : List Char → Prop) (front : List Char) : Prop := ∃ more, L (front ++ more)

theorem Opens.mono (h : Opens L front) (hLM : ∀ t, L t → M t) : Opens M front :=
  h.imp fun _ => hLM _

/-- The failure is at a byte behind which no reading could go on, at the end of an input that could
go on, or at a limit. -/
inductive Halts (L : List Char → Prop) (r : Reader α) (pos : Nat) (cs : List Char)
    (e : DecodeError) : Prop
  | byte (front rest : List Char) (split : cs = front ++ rest) (more : rest ≠ [])
      (opens : Opens L front) (cause : e.cause.AtByte) (offset : e.offset = pos + width front)
      (again : ∀ rest', SameLead rest rest' → r (Cursor.at pos (front ++ rest')) = .error e)
  | ending (cause : e.cause.AtEnd) (offset : e.offset ≤ pos + width cs) (opens : Opens L cs)
  | limit (cause : e.cause.Limit) (offset : e.offset ≤ pos + width cs)

/-- A failure behind some text. -/
theorem Halts.behind {s : Reader β} (text : List Char) (h : Halts L s (pos + width text) rest e)
    (hopens : ∀ {front}, Opens L front → Opens M (text ++ front))
    (heq : ∀ {rest'}, SameLead rest rest' →
      s (Cursor.at (pos + width text) rest') = .error e →
      r (Cursor.at pos (text ++ rest')) = .error e) :
    Halts M r pos (text ++ rest) e := by
  cases h with
  | byte front rest split more opens cause offset again =>
    subst split
    refine .byte (text ++ front) rest (by rw [List.append_assoc]) more (hopens opens) cause
      (by rw [offset, width_append, Nat.add_assoc]) fun rest' hrest => ?_
    rw [List.append_assoc]
    exact heq (hrest.append front) (again rest' hrest)
  | ending cause offset opens =>
    exact .ending cause (by rw [width_append]; omega) (hopens opens)
  | limit cause offset => exact .limit cause (by rw [width_append]; omega)

/-- A failure that another reader has as well. -/
theorem Halts.imp {s : Reader β} (h : Halts L s pos cs e)
    (hopens : ∀ {front}, Opens L front → Opens M front)
    (heq : ∀ {cs'}, SameLead cs cs' → s (Cursor.at pos cs') = .error e →
      r (Cursor.at pos cs') = .error e) : Halts M r pos cs e :=
  Halts.behind [] h hopens heq

/-- What the reader does with the input `cs` is as far as it goes within the language. -/
structure Walks (L : List Char → Prop) (r : Reader α) (pos : Nat) (cs : List Char) : Prop where
  goes : ∀ {x c'}, r (Cursor.at pos cs) = .ok (x, c') → ∃ text rest, cs = text ++ rest ∧ L text ∧
    ∀ rest', SameLead rest rest' →
      r (Cursor.at pos (text ++ rest')) = .ok (x, Cursor.at (pos + width text) rest')
  halts : ∀ {e}, r (Cursor.at pos cs) = .error e → Halts L r pos cs e

namespace Walks

/-- Reading a text whatever follows its next byte. -/
theorem sure (x : α) (text : List Char) (htext : L text) (again : ∀ rest', SameLead rest rest' →
      r (Cursor.at pos (text ++ rest')) = .ok (x, Cursor.at (pos + width text) rest')) :
    Walks L r pos (text ++ rest) where
  goes hr := by
    rw [again rest (.refl _)] at hr
    cases hr
    exact ⟨text, rest, rfl, htext, again⟩
  halts hr := by
    rw [again rest (.refl _)] at hr
    cases hr

/-- Failing. -/
theorem fail (hr : r (Cursor.at pos cs) = .error e) (h : Halts L r pos cs e) :
    Walks L r pos cs where
  goes hr' := by
    rw [hr] at hr'
    cases hr'
  halts hr' := by
    rw [hr] at hr'
    cases hr'
    exact h

theorem mono (h : Walks L r pos cs) (hLM : ∀ t, L t → M t) : Walks M r pos cs where
  goes hr := by
    obtain ⟨text, rest, hcs, htext, again⟩ := h.goes hr
    exact ⟨text, rest, hcs, hLM _ htext, again⟩
  halts hr := (h.halts hr).imp (fun ho => ho.mono hLM) fun _ h => h

/-- A reader that looks at the first byte and then does as another one. -/
theorem congr (h : Walks L r pos cs)
    (heq : ∀ cs', SameLead cs cs' → r' (Cursor.at pos cs') = r (Cursor.at pos cs')) :
    Walks L r' pos cs where
  goes hr := by
    rw [heq cs (.refl _)] at hr
    obtain ⟨text, rest, rfl, htext, again⟩ := h.goes hr
    refine ⟨text, rest, rfl, htext, fun rest' hrest => ?_⟩
    rw [heq _ (hrest.append text), again rest' hrest]
  halts hr := by
    rw [heq cs (.refl _)] at hr
    exact (h.halts hr).imp id fun hcs h => (heq _ hcs).trans h

/-- Reading nothing. -/
theorem give (x : α) (pos : Nat) (cs : List Char) :
    Walks (· = []) (fun c => .ok (x, c)) pos cs :=
  sure x [] rfl fun _ _ => rfl

/-- Rejecting what comes next. -/
theorem refuse (hL : ∃ t, L t) (place : Place) (pos : Nat) (cs : List Char) :
    Walks L (fun c => (.error (c.unexpected place) : Except _ (α × Cursor))) pos cs := by
  refine fail rfl ?_
  cases cs with
  | nil => exact .ending trivial (Nat.le_refl _) hL
  | cons c cs =>
    have hc : (Cursor.at pos (c :: cs)).unexpected place =
        ⟨.unexpectedByte (lead c) place, pos⟩ := by
      simp only [Cursor.unexpected, peek_cons, at_pos]
    rw [hc]
    refine .byte [] (c :: cs) rfl (List.cons_ne_nil _ _) hL trivial rfl fun rest' hrest => ?_
    simp only [List.nil_append]
    rw [hrest.unexpected, hc]

/-- Going behind an ASCII character. -/
theorem step (hd : d.toNat < 0x80) (h : Walks L r (pos + 1) cs) :
    Walks (fun t => ∃ u, t = d :: u ∧ L u) (fun c => r c.step) pos (d :: cs) where
  goes hr := by
    rw [step_ascii hd] at hr
    obtain ⟨text, rest, rfl, htext, again⟩ := h.goes hr
    refine ⟨d :: text, rest, rfl, ⟨text, rfl, htext⟩, fun rest' hrest => ?_⟩
    rw [List.cons_append, step_ascii hd, again rest' hrest, width_ascii hd, Nat.add_right_comm,
      Nat.add_assoc]
  halts hr := by
    rw [step_ascii hd] at hr
    have hwidth : pos + width [d] = pos + 1 := by rw [width_ascii hd, width_nil]
    refine Halts.behind [d] (hwidth ▸ h.halts hr) (Exists.imp fun more h => ⟨_, rfl, h⟩)
      fun _ he => ?_
    rw [List.singleton_append, step_ascii hd, ← hwidth, he]

/-- A reader that looks whether an ASCII character comes next. -/
theorem ite (hd : d.toNat < 0x80) (hyes : cs.head? = some d → Walks L r pos cs)
    (hno : cs.head? ≠ some d → Walks L r' pos cs) :
    Walks L (fun c => if c.peek = some (byte d) then r c else r' c) pos cs := by
  by_cases h : cs.head? = some d
  · refine (hyes h).congr fun cs' hcs => ?_
    rw [hcs.peek pos, if_pos ((peek_eq_byte hd).mpr h)]
  · refine (hno h).congr fun cs' hcs => ?_
    rw [hcs.peek pos, if_neg (mt (peek_eq_byte hd).mp h)]

/-- A reader that goes behind an ASCII character if it comes next. -/
theorem step_or (hd : d.toNat < 0x80)
    (hyes : ∀ tl, cs = d :: tl → Walks L r (pos + 1) tl) (hno : Walks M r' pos cs)
    (hLM : ∀ t, L t → M (d :: t)) :
    Walks M (fun c => if c.peek = some (byte d) then r c.step else r' c) pos cs := by
  refine ite hd (fun h => ?_) fun _ => hno
  obtain ⟨tl, rfl⟩ := eq_cons_of_head? h
  refine ((hyes tl rfl).step hd).mono ?_
  rintro _ ⟨t, rfl, ht⟩
  exact hLM t ht

theorem mapRead (h : Walks L r pos cs) (f : α → β) : Walks L (mapRead f r) pos cs where
  goes hr := by
    unfold Json.mapRead at hr
    split at hr
    · cases hr
    · next hread =>
      cases hr
      obtain ⟨text, rest, hcs, htext, again⟩ := h.goes hread
      refine ⟨text, rest, hcs, htext, fun rest' hrest => ?_⟩
      simp only [Json.mapRead, again rest' hrest]
  halts hr := by
    unfold Json.mapRead at hr
    split at hr
    · next hread =>
      cases hr
      refine (h.halts hread).imp id fun _ he => ?_
      simp only [Json.mapRead, he]
    · cases hr

end Walks

/-! ## One after the other -/

def andThen (r : Reader α) (s : α → Reader β) : Reader β := fun c =>
  match r c with
  | .error e => .error e
  | .ok (x, c) => s x c

/-- A text of one language and then one of another. -/
def Chain (L M : List Char → Prop) (t : List Char) : Prop := ∃ a b, t = a ++ b ∧ L a ∧ M b

theorem Opens.chain (h : Opens L front) (hM : ∃ t, M t) : Opens (Chain L M) front := by
  obtain ⟨more, hL⟩ := h
  obtain ⟨b, hb⟩ := hM
  exact ⟨more ++ b, front ++ more, b, by rw [List.append_assoc], hL, hb⟩

theorem Opens.behind (hL : L text) (h : Opens M front) : Opens (Chain L M) (text ++ front) := by
  obtain ⟨more, hM⟩ := h
  exact ⟨more, text, front ++ more, by rw [List.append_assoc], hL, hM⟩

/-- Two readers one after the other walk along both languages one after the other. -/
theorem Walks.andThen (hr : Walks L r pos cs) (hM : ∃ t, M t)
    (hs : ∀ x {text rest}, cs = text ++ rest → L text → Walks M (s x) (pos + width text) rest) :
    Walks (Chain L M) (andThen r s) pos cs where
  goes {y c'} h := by
    cases hread : r (Cursor.at pos cs) with
    | error e => simp only [Json.andThen, hread] at h; cases h
    | ok p =>
      obtain ⟨x, c₁⟩ := p
      obtain ⟨text, rest, rfl, htext, again⟩ := hr.goes hread
      simp only [Json.andThen, again rest (.refl _)] at h
      obtain ⟨text', rest', rfl, htext', again'⟩ := (hs x rfl htext).goes h
      refine ⟨text ++ text', rest', by rw [List.append_assoc], ⟨_, _, rfl, htext, htext'⟩, ?_⟩
      intro rest'' hrest
      simp only [Json.andThen, List.append_assoc, again _ (hrest.append text'), again' _ hrest,
        width_append, Nat.add_assoc]
  halts {e} h := by
    cases hread : r (Cursor.at pos cs) with
    | error e' =>
      simp only [Json.andThen, hread] at h
      cases h
      refine (hr.halts hread).imp (fun ho => ho.chain hM) fun _ he => ?_
      simp only [Json.andThen, he]
    | ok p =>
      obtain ⟨x, c₁⟩ := p
      obtain ⟨text, rest, rfl, htext, again⟩ := hr.goes hread
      simp only [Json.andThen, again rest (.refl _)] at h
      refine Halts.behind text ((hs x rfl htext).halts h) (fun ho => ho.behind htext) fun hrest he => ?_
      simp only [Json.andThen, again _ hrest, he]

/-! ## White space -/

def blank : Reader Unit := fun c => .ok ((), skipBlank c)

theorem not_blank_of_lead {c c' : Char} (h : lead c = lead c') (hc : isBlank c = false) :
    isBlank c' = false := by
  rw [← isBlankByte_lead, ← h, isBlankByte_lead, hc]

theorem walks_blank (pos : Nat) (cs : List Char) : Walks Blank blank pos cs where
  goes hr := by
    cases hr
    obtain ⟨front, rest, rfl, hfront, hrest, -⟩ := skipBlank_at pos cs
    refine ⟨front, rest, rfl, hfront, fun rest' h => ?_⟩
    rw [blank, skipBlank_append pos hfront (h.head not_blank_of_lead hrest), hfront.width]
  halts hr := by cases hr

/-- What is read behind white space. -/
theorem Walks.trim (h : ∀ pos cs, Walks L r pos cs) (hL : ∃ t, L t) (pos : Nat) (cs : List Char) :
    Walks (Chain Blank L) (Json.andThen blank fun _ => r) pos cs :=
  (walks_blank pos cs).andThen hL fun _ _ _ _ _ => h _ _

/-! ## Passing a text -/

/-- The text is read whatever it says, or a limit is met in it. -/
def Passes (r : Reader α) (pos : Nat) (text rest : List Char) : Prop :=
  (∃ x pos', r (Cursor.at pos (text ++ rest)) = .ok (x, Cursor.at pos' rest)) ∨
    ∃ e, r (Cursor.at pos (text ++ rest)) = .error e ∧ e.cause.Limit

theorem Passes.mapRead (h : Passes r pos text rest) (f : α → β) :
    Passes (mapRead f r) pos text rest := by
  rcases h with ⟨x, pos', h⟩ | ⟨e, h, he⟩
  · exact .inl ⟨f x, pos', by simp only [Json.mapRead, h]⟩
  · exact .inr ⟨e, by simp only [Json.mapRead, h], he⟩

end ScriptServer.Json
