import ModelSql.Text.Delimited
/-!
# Tokens of SQL text

A lexer for the SQL that is written here. It reads a text from the left, one
character at a time, and knows words, parameters, comparison signs, names in
brackets and texts in single quotes; a closing mark inside the last two is
written twice.

* `Lexes text tokens`: `text` reads as `tokens` wherever a break follows it;
* `Opens text tokens`: the same, whatever follows;
* `Opens.append`, `Lexes.join`: pieces of a statement read one after the other;
* `lexes_word`, `lexes_parameter`, `lexes_enclose`: words, parameters and delimited
  texts are one token each, and a delimited text may contain anything.
-/

namespace ModelSql.Sql

/-- The marks around a name or a text. -/
inductive Quote where
  | bracket
  | apostrophe
deriving DecidableEq, Repr

def Quote.opening : Quote → Char
  | bracket => '['
  | apostrophe => '\''

def Quote.closing : Quote → Char
  | bracket => ']'
  | apostrophe => '\''

/-- The tokens that go on as long as their characters do. -/
inductive RunKind where
  /-- A keyword, a bare name or a numeral. -/
  | word
  /-- A parameter, which starts with its mark. -/
  | parameter
  | sign
deriving DecidableEq, Repr

inductive Token where
  | run (kind : RunKind) (text : String)
  /-- What stands between two marks, with doubled marks read as one. -/
  | quoted (q : Quote) (text : String)
  /-- An opening mark without its closing mark. -/
  | unclosed
  | punctuation (c : Char)
deriving DecidableEq, Repr

namespace Token

@[match_pattern]
abbrev word (text : String) : Token := run .word text

@[match_pattern]
abbrev parameter (name : String) : Token := run .parameter name

@[match_pattern]
abbrev sign (text : String) : Token := run .sign text

@[simp]
def parameter? : Token → Option String
  | parameter name => some name
  | _ => none

end Token

/-- The parameters among tokens, in order. -/
def parametersOf (ts : List Token) : List String := ts.filterMap Token.parameter?

section
variable (t : Token) (ts us : List Token)

theorem filterMap_cons_toList {α : Type} (pick : Token → Option α) :
    (t :: ts).filterMap pick = (pick t).toList ++ ts.filterMap pick := by
  cases own : pick t with
  | none => exact List.filterMap_cons_none own
  | some a => exact List.filterMap_cons_some own

@[simp]
theorem parametersOf_nil : parametersOf [] = [] := rfl

@[simp]
theorem parametersOf_cons : parametersOf (t :: ts) = t.parameter?.toList ++ parametersOf ts :=
  filterMap_cons_toList t ts Token.parameter?

@[simp]
theorem parametersOf_append : parametersOf (ts ++ us) = parametersOf ts ++ parametersOf us :=
  List.filterMap_append

end

theorem filterMap_intercalate {α β : Type} {pick : Token → Option β}
    (comma : pick (.punctuation ',') = none) (tokens : α → List Token) (items : List α) :
    ([Token.punctuation ','].intercalate (items.map tokens)).filterMap pick =
      items.flatMap fun a => (tokens a).filterMap pick := by
  induction items with
  | nil => rfl
  | cons a items ih =>
    cases items with
    | nil => simp
    | cons b items =>
      have separator : [Token.punctuation ','].filterMap pick = [] := by simp [comma]
      simp only [List.map_cons, List.intercalate_cons_cons, List.filterMap_append, separator,
        List.append_nil, List.flatMap_cons] at ih ⊢
      rw [ih]

theorem parametersOf_intercalate {α : Type} (tokens : α → List Token) (items : List α) :
    parametersOf ([Token.punctuation ','].intercalate (items.map tokens)) =
      items.flatMap fun a => parametersOf (tokens a) :=
  filterMap_intercalate rfl tokens items

/-- ASCII letters and everything beyond ASCII. -/
def isLetter (c : Char) : Bool := c.isAlpha || 128 ≤ c.toNat

def isWordChar (c : Char) : Bool := isLetter c || c.isDigit || c = '_'

def isSignChar (c : Char) : Bool := c = '=' || c = '<' || c = '>'

def isBlank (c : Char) : Bool := c = ' ' || c = '\n' || c = '\t' || c = '\r'

def RunKind.continues : RunKind → Char → Bool
  | word | parameter => isWordChar
  | sign => isSignChar

/-- What has been read of the current token. -/
inductive Mode where
  | between
  | run (kind : RunKind) (seen : List Char)
  /-- After an opening mark. -/
  | inside (q : Quote) (seen : List Char)
  /-- After a closing mark, which may turn out to be doubled. -/
  | closed (q : Quote) (seen : List Char)
deriving DecidableEq, Repr

namespace Mode

def isInside : Mode → Bool
  | inside .. => true
  | _ => false

/-- The token that ends here. -/
def finish : Mode → List Token
  | between => []
  | run kind seen => [.run kind (String.ofList seen)]
  | inside _ _ => [.unclosed]
  | closed q seen => [.quoted q (String.ofList seen)]

/-- What a character begins between tokens. -/
def start (c : Char) : List Token × Mode :=
  if isBlank c then ([], between)
  else if isWordChar c then ([], run .word [c])
  else if c = '@' then ([], run .parameter [c])
  else if isSignChar c then ([], run .sign [c])
  else if c = '[' then ([], inside .bracket [])
  else if c = '\'' then ([], inside .apostrophe [])
  else ([.punctuation c], between)

/-- The tokens that a character completes, and the mode after it. -/
def step (m : Mode) (c : Char) : List Token × Mode :=
  match m with
  | between => start c
  | run kind seen =>
    if kind.continues c then ([], run kind (seen ++ [c]))
    else (m.finish ++ (start c).1, (start c).2)
  | inside q seen =>
    if c = q.closing then ([], closed q seen) else ([], inside q (seen ++ [c]))
  | closed q seen =>
    if c = q.closing then ([], inside q (seen ++ [c]))
    else (m.finish ++ (start c).1, (start c).2)

/-- The tokens of a text that is read in the mode. -/
def tokens : Mode → List Char → List Token
  | m, [] => m.finish
  | m, c :: text => (m.step c).1 ++ (m.step c).2.tokens text

/-- The tokens that a text completes, and the mode after it. -/
def read : Mode → List Char → List Token × Mode
  | m, [] => ([], m)
  | m, c :: text => ((m.step c).1 ++ ((m.step c).2.read text).1, ((m.step c).2.read text).2)

end Mode

def tokens (text : String) : List Token := Mode.between.tokens text.toList

/-- The parameters in a text, from the left to the right. -/
def placeholders (text : String) : List String := parametersOf (tokens text)

/-- Whether a character ends every token before it that is complete. -/
def isBreak (c : Char) : Bool := !isWordChar c && !isSignChar c && c ≠ ']' && c ≠ '\''

/-- A text that no token before it goes on into. -/
def Breaks : List Char → Prop
  | [] => True
  | c :: _ => isBreak c = true

/-- `text` reads as `ts` wherever a break follows it. -/
def Lexes (text : String) (ts : List Token) : Prop :=
  ∀ rest, Breaks rest →
    Mode.between.tokens (text.toList ++ rest) = ts ++ Mode.between.tokens rest

/-- `text` reads as `ts`, whatever follows it. -/
def Opens (text : String) (ts : List Token) : Prop :=
  ∀ rest, Mode.between.tokens (text.toList ++ rest) = ts ++ Mode.between.tokens rest

section
variable {s u : String} {ts us : List Token}

theorem Lexes.tokens_eq (h : Lexes s ts) : tokens s = ts := by
  simpa [tokens, Mode.tokens, Mode.finish] using h [] trivial

theorem Opens.lexes (h : Opens s ts) : Lexes s ts := fun rest _ => h rest

theorem lexes_empty : Lexes "" [] := fun _ _ => rfl

/-- The text starts with a break. -/
def Separates (text : String) : Prop := ∀ rest, Breaks (text.toList ++ rest)

/-- `text` reads as `ts`, whatever stands before and after it. -/
structure Joins (text : String) (ts : List Token) : Prop where
  opens : Opens text ts
  separates : Separates text

theorem Separates.append (h : Separates s) : Separates (s ++ u) := by
  intro rest
  rw [String.toList_append, List.append_assoc]
  exact h _

theorem Lexes.append (hs : Lexes s ts) (hu : Lexes u us) (hb : Separates u) :
    Lexes (s ++ u) (ts ++ us) := by
  intro rest hr
  rw [String.toList_append, List.append_assoc, hs _ (hb rest), hu rest hr, List.append_assoc]

theorem Opens.append (hs : Opens s ts) (hu : Lexes u us) : Lexes (s ++ u) (ts ++ us) := by
  intro rest hr
  rw [String.toList_append, List.append_assoc, hs, hu rest hr, List.append_assoc]

theorem Opens.trans (hs : Opens s ts) (hu : Opens u us) : Opens (s ++ u) (ts ++ us) := by
  intro rest
  rw [String.toList_append, List.append_assoc, hs, hu, List.append_assoc]

theorem Lexes.join (hs : Lexes s ts) (hu : Joins u us) : Opens (s ++ u) (ts ++ us) := by
  intro rest
  rw [String.toList_append, List.append_assoc, hs _ (hu.separates rest), hu.opens,
    List.append_assoc]

/-- The items of a list with a separator between them. -/
theorem lexes_intercalate {α : Type} {items : List α} {text : α → String}
    {toks : α → List Token} (hs : Joins s ts)
    (h : ∀ a ∈ items, Lexes (text a) (toks a)) :
    Lexes (s.intercalate (items.map text)) (ts.intercalate (items.map toks)) := by
  induction items with
  | nil => exact lexes_empty
  | cons a items ih =>
    have ha := h a List.mem_cons_self
    have hrest := ih fun b hb => h b (List.mem_cons_of_mem _ hb)
    cases items with
    | nil => simpa using ha
    | cons b items =>
      simp only [List.map_cons, String.intercalate_cons_cons, List.intercalate_cons_cons,
        String.append_assoc, List.append_assoc] at hrest ⊢
      exact ha.append (hs.opens.append hrest) hs.separates.append

end

/-! ## Reading single tokens -/

theorem Mode.tokens_of_breaks {m : Mode} (hm : m.isInside = false) {rest : List Char}
    (hr : Breaks rest) : m.tokens rest = m.finish ++ between.tokens rest := by
  cases rest with
  | nil => simp [tokens, finish]
  | cons c rest =>
    have hc : isBreak c = true := hr
    simp only [isBreak, Bool.and_eq_true, Bool.not_eq_true', decide_eq_true_eq] at hc
    obtain ⟨⟨⟨hword, hsign⟩, hbracket⟩, hapostrophe⟩ := hc
    cases m with
    | between => rfl
    | run kind seen =>
      have stops : kind.continues c = false := by cases kind <;> assumption
      simp only [tokens, step, stops, Bool.false_eq_true, if_false, List.append_assoc]
    | inside q seen => cases hm
    | closed q seen =>
      have stops : c ≠ q.closing := by cases q <;> assumption
      simp only [tokens, step, stops, if_false, List.append_assoc]

theorem Mode.tokens_append (m : Mode) (text rest : List Char) :
    m.tokens (text ++ rest) = (m.read text).1 ++ (m.read text).2.tokens rest := by
  induction text generalizing m with
  | nil => rfl
  | cons c text ih => rw [List.cons_append, tokens, ih, read, List.append_assoc]

theorem opens_of_read {text : String} {ts : List Token}
    (h : Mode.between.read text.toList = (ts, .between)) : Opens text ts := by
  intro rest
  rw [Mode.tokens_append, h]

theorem separates_of_head? {text : String} (h : text.toList.head?.any isBreak = true) :
    Separates text := by
  intro rest
  cases ht : text.toList with
  | nil => simp [ht] at h
  | cons c tail => simpa [ht, Breaks] using h

theorem joins_of_read {text : String} {ts : List Token}
    (h : text.toList.head?.any isBreak = true ∧
      Mode.between.read text.toList = (ts, .between)) : Joins text ts :=
  ⟨opens_of_read h.2, separates_of_head? h.1⟩

/-- A token may still go on after the text. -/
theorem lexes_of_read {text : String} {ts : List Token}
    (h : (Mode.between.read text.toList).2.isInside = false ∧ tokens text = ts) :
    Lexes text ts := by
  obtain ⟨outside, rfl⟩ := h
  intro rest hr
  have all := Mode.between.tokens_append text.toList []
  rw [List.append_nil] at all
  rw [Mode.tokens_append, Mode.tokens_of_breaks outside hr, tokens, all, List.append_assoc]
  rfl

theorem Mode.tokens_run {kind : RunKind} {text : List Char} (seen : List Char)
    (ht : ∀ c ∈ text, kind.continues c = true) {rest : List Char} (hr : Breaks rest) :
    (run kind seen).tokens (text ++ rest) =
      .run kind (String.ofList (seen ++ text)) :: between.tokens rest := by
  induction text generalizing seen with
  | nil =>
    rw [List.nil_append, tokens_of_breaks rfl hr, List.append_nil]
    rfl
  | cons c text ih =>
    have hc := ht c List.mem_cons_self
    simp only [List.cons_append, tokens, step, hc, if_true, List.nil_append]
    rw [ih (seen ++ [c]) fun c' h => ht c' (List.mem_cons_of_mem _ h), List.append_assoc]
    rfl

/-- Word characters are neither blanks nor marks. -/
theorem Mode.start_of_wordChar {c : Char} (h : isWordChar c = true) :
    start c = ([], run .word [c]) := by
  have hb : isBlank c = false := by
    cases hb : isBlank c
    · rfl
    · simp only [isBlank, Bool.or_eq_true, decide_eq_true_eq] at hb
      obtain ((rfl | rfl) | rfl) | rfl := hb <;> exact absurd h (by decide)
  simp only [start, hb, h, Bool.false_eq_true, if_false, if_true]

def IsWord (text : String) : Prop :=
  text ≠ "" ∧ ∀ c ∈ text.toList, isWordChar c = true

instance (text : String) : Decidable (IsWord text) :=
  decidable_of_iff (text ≠ "" ∧ text.toList.all isWordChar = true) (by simp [IsWord])

/-- A word that is no numeral. -/
def IsName (text : String) : Prop :=
  IsWord text ∧ text.toList.head?.any Char.isDigit = false

instance (text : String) : Decidable (IsName text) := inferInstanceAs (Decidable (_ ∧ _))

theorem lexes_word {text : String} (h : IsWord text) : Lexes text [.word text] := by
  obtain ⟨nonempty, chars⟩ := h
  intro rest hr
  cases ht : text.toList with
  | nil => exact absurd (String.toList_eq_nil_iff.mp ht) nonempty
  | cons c tail =>
    rw [ht] at chars
    have hc := chars c List.mem_cons_self
    simp only [List.cons_append, Mode.tokens, Mode.step, Mode.start_of_wordChar hc, List.nil_append]
    have following : ∀ c' ∈ tail, RunKind.word.continues c' = true :=
      fun c' h' => chars c' (List.mem_cons_of_mem _ h')
    rw [Mode.tokens_run [c] following hr, List.singleton_append, ← ht, String.ofList_toList]

theorem lexes_parameter {name : String} (h : ∀ c ∈ name.toList, isWordChar c = true) :
    Lexes ("@" ++ name) [.parameter ("@" ++ name)] := by
  intro rest hr
  have starts : Mode.start '@' = ([], .run .parameter ['@']) := rfl
  have text : ("@" ++ name).toList = '@' :: name.toList := String.toList_append
  have name_eq : String.ofList ('@' :: name.toList) = "@" ++ name := by
    rw [← text, String.ofList_toList]
  simp only [text, List.cons_append, Mode.tokens, Mode.step, starts, List.nil_append]
  rw [Mode.tokens_run ['@'] h hr, List.singleton_append, name_eq]

/-- Inside marks a doubled closing mark is read as one, so all of the text is read. -/
theorem Mode.tokens_inside (q : Quote) (text seen : List Char) {rest : List Char}
    (hr : Breaks rest) :
    (inside q seen).tokens (Text.doubling q.closing text ++ q.closing :: rest) =
      .quoted q (String.ofList (seen ++ text)) :: between.tokens rest := by
  induction text generalizing seen with
  | nil =>
    simp only [Text.doubling, List.nil_append, tokens, step, if_true, List.append_nil]
    rw [tokens_of_breaks rfl hr]
    rfl
  | cons c text ih =>
    by_cases hc : c = q.closing
    · subst hc
      simp only [Text.doubling, if_true, List.cons_append, tokens, step, List.nil_append]
      rw [ih (seen ++ [q.closing]), List.append_assoc]
      rfl
    · simp only [Text.doubling, hc, if_false, List.cons_append, tokens, step, List.nil_append]
      rw [ih (seen ++ [c]), List.append_assoc]
      rfl

/-- A delimited text is one token, whatever it contains. -/
theorem lexes_enclose (q : Quote) (text : String) :
    Lexes (Text.enclose q.opening q.closing text) [.quoted q text] := by
  intro rest hr
  have starts : Mode.start q.opening = ([], .inside q []) := by cases q <;> rfl
  simp only [Text.enclose, String.toList_ofList, List.cons_append, List.append_assoc,
    List.nil_append, Mode.tokens, Mode.step, starts]
  rw [Mode.tokens_inside q _ [] hr, List.nil_append, String.ofList_toList]

end ModelSql.Sql
