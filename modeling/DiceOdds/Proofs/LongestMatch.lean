import DiceOdds.Proofs.StrayCharacters
import DiceOdds.Proofs.TokenCuts
import DiceOdds.Proofs.TokenPatterns

/-!
# The longest token wins

A text is parted from left to right: a blank is passed over, and where a token begins the
longest one is taken, whatever its kind.  This goes on to the end of the text or to the
first character at which there is neither.  The tokens of a text are those of this
parting, at the offsets of their first bytes, and a text without them is refused at the
character where its parting stops.
-/

namespace DiceOdds

/-- The text `lexeme ++ rest` begins with a token of the kind and with none that is
longer. -/
structure Token.IsLongest (kind : Token.Kind) (lexeme rest : List Char) : Prop where
  fits : kind.Matches lexeme
  longest : ∀ (other : Token.Kind) (longer : List Char), other.Matches longer →
    longer <+: lexeme ++ rest → longer.length ≤ lexeme.length

/-- The text `stray :: later` begins neither with a blank nor with a token. -/
structure Token.IsStray (stray : Char) (later : List Char) : Prop where
  noBlank : stray ∉ [' ', '\t', '\r', '\n']
  noToken : ∀ (kind : Token.Kind) (lexeme : List Char), kind.Matches lexeme →
    ¬ lexeme <+: stray :: later

/-- In front of `rest`, a text that begins at an offset consists of blanks and of the
tokens listed, each of them the longest that begins where it does. -/
inductive Token.Parted (rest : List Char) : Nat → List Char → List Token → Prop where
  | done {position : Nat} : Parted rest position [] []
  | blank {position : Nat} {character : Char} {front : List Char} {tokens : List Token} :
      character ∈ [' ', '\t', '\r', '\n'] →
      Parted rest (position + character.utf8Size) front tokens →
      Parted rest position (character :: front) tokens
  | token {position : Nat} {kind : Token.Kind} {lexeme front : List Char}
      {tokens : List Token} :
      Token.IsLongest kind lexeme (front ++ rest) →
      Parted rest (position + String.utf8Len lexeme) front tokens →
      Parted rest position (lexeme ++ front)
        (⟨kind, String.ofList lexeme, position⟩ :: tokens)

theorem Token.isBlank_iff_mem {character : Char} :
    Token.isBlank character ↔ character ∈ [' ', '\t', '\r', '\n'] := by
  simp [Token.isBlank, or_assoc]

section Longest

theorem Token.length_le_takeWhile {digits : List Char}
    (run : ∀ character ∈ digits, Token.isDigit character) (rest : List Char) :
    digits.length ≤ ((digits ++ rest).takeWhile Token.isDigit).length := by
  rw [List.takeWhile_append_of_pos run, List.length_append]
  exact Nat.le_add_right _ _

/-- Faces at the beginning of a text are not longer than what is taken for them. -/
theorem Token.length_lt_facesLength {delimiter : Char} {faces : List Char}
    (delimits : Dice.isDelimiter delimiter) (written : Faces.IsWritten faces)
    (rest : List Char) :
    faces.length < Token.facesLength (delimiter :: faces ++ rest) := by
  rcases written with ⟨filled, run⟩ | fudge
  · obtain ⟨face, others, rfl⟩ := List.exists_cons_of_ne_nil filled
    rw [List.forall_mem_cons] at run
    have reaches := Token.length_le_takeWhile run.2 rest
    simp only [List.cons_append, Token.facesLength, delimits, run.1,
      Token.isFudgeWord_of_isDigit run.1, List.length_cons, Bool.not_true,
      Bool.false_eq_true, if_false, if_true]
    omega
  · obtain ⟨letter, _, rfl⟩ := Faces.isFudgeWord_iff.mp fudge
    simp [Token.facesLength, delimits, fudge]

variable {first : Char} {tail rest : List Char} {kind : Token.Kind} {length : Nat}

/-- Where a spelling begins, a token is found that is not shorter. -/
theorem Token.exists_longest?_of_spells (spells : kind.Spells (first :: tail))
    (rest : List Char) :
    ∃ found length, Token.longest? first (tail ++ rest) = some (found, length) ∧
      tail.length ≤ length := by
  cases kind with
  | integer =>
      have run := spells.2
      rw [List.forall_mem_cons] at run
      have reaches := Token.length_le_takeWhile run.2 rest
      simp only [Token.longest?, run.1, if_true]
      split
      · exact ⟨_, _, rfl, reaches⟩
      · exact ⟨_, _, rfl, by omega⟩
  | dice =>
      obtain ⟨count, delimiter, faces, rfl, counted, delimits, written⟩ :=
        Dice.IsWritten.exists_tail spells
      have reaches := Token.length_lt_facesLength delimits written rest
      obtain ⟨length, found⟩ := Nat.exists_eq_add_one_of_ne_zero (Nat.ne_zero_of_lt reaches)
      rw [List.append_assoc]
      refine ⟨_, _, Token.longest?_of_counted counted delimits found, ?_⟩
      rw [List.length_append, List.length_cons]
      omega
  | _ =>
      obtain ⟨rfl, rfl⟩ := List.cons.inj spells
      cases rest <;> exact ⟨_, 0, rfl, Nat.le_refl 0⟩

/-- A token that begins a text is not longer than the token that is found there. -/
theorem Token.exists_longest?_of_matches {lexeme : List Char} (fits : kind.Matches lexeme)
    (begins : lexeme <+: first :: rest) :
    ∃ found length, Token.longest? first rest = some (found, length) ∧
      lexeme.length ≤ length + 1 := by
  have spells := Token.Kind.spells_iff_matches.mpr fits
  obtain ⟨head, tail, rfl⟩ := spells.exists_cons
  obtain ⟨rfl, after, rfl⟩ := List.cons_prefix_cons.mp begins
  obtain ⟨found, length, longest, reaches⟩ := Token.exists_longest?_of_spells spells after
  exact ⟨found, length, longest, Nat.succ_le_succ reaches⟩

theorem Token.isLongest_of_longest?
    (found : Token.longest? first rest = some (kind, length)) :
    Token.IsLongest kind (first :: rest.take length) (rest.drop length) := by
  refine ⟨Token.Kind.spells_iff_matches.mp (Token.spells_of_longest? found), ?_⟩
  intro other longer fits begins
  rw [List.cons_append, List.take_append_drop] at begins
  obtain ⟨_, _, same, reaches⟩ := Token.exists_longest?_of_matches fits begins
  rw [found] at same
  cases same
  rw [List.length_cons, List.length_take_of_le (Token.length_le_of_longest? found)]
  exact reaches

theorem Token.isStray_of_longest? (noBlank : Token.isBlank first = false)
    (found : Token.longest? first rest = none) : Token.IsStray first rest := by
  constructor
  · rw [← Token.isBlank_iff_mem, noBlank]
    exact Bool.false_ne_true
  · intro kind lexeme fits begins
    obtain ⟨_, _, same, _⟩ := Token.exists_longest?_of_matches fits begins
    rw [found] at same
    contradiction

/-- A text is spelled as a token of one kind only. -/
theorem Token.Kind.Spells.unique {other : Token.Kind} {text : List Char}
    (spells : kind.Spells text) (otherSpells : other.Spells text) : kind = other := by
  obtain ⟨head, tail, rfl⟩ := spells.exists_cons
  have found := Token.longest?_append spells Token.breaks_nil
  rw [Token.longest?_append otherSpells Token.breaks_nil] at found
  cases found
  rfl

theorem Token.IsLongest.longest?_eq (isLongest : Token.IsLongest kind (first :: tail) rest) :
    Token.longest? first (tail ++ rest) = some (kind, tail.length) := by
  have spells := Token.Kind.spells_iff_matches.mpr isLongest.fits
  obtain ⟨found, length, longest, reaches⟩ := Token.exists_longest?_of_spells spells rest
  have foundSpells := Token.spells_of_longest? longest
  -- What is found begins the text too, so it is as long as the longest token.
  have begins : first :: (tail ++ rest).take length <+: first :: tail ++ rest :=
    (List.prefix_cons_inj first).mpr (List.take_prefix length _)
  have within := isLongest.longest found _
    (Token.Kind.spells_iff_matches.mp foundSpells) begins
  rw [List.length_cons, List.length_cons,
    List.length_take_of_le (Token.length_le_of_longest? longest)] at within
  obtain rfl : length = tail.length := by omega
  rw [List.take_left] at foundSpells
  rw [longest, foundSpells.unique spells]

theorem Token.IsStray.isBlank_eq (isStray : Token.IsStray first rest) :
    Token.isBlank first = false := by
  rw [← Bool.not_eq_true, Token.isBlank_iff_mem]
  exact isStray.noBlank

theorem Token.IsStray.longest?_eq (isStray : Token.IsStray first rest) :
    Token.longest? first rest = none := by
  cases found : Token.longest? first rest with
  | none => rfl
  | some longest =>
      have isLongest := Token.isLongest_of_longest? found
      have begins : first :: rest.take longest.2 <+: first :: rest :=
        (List.prefix_cons_inj first).mpr (List.take_prefix _ _)
      exact (isStray.noToken _ _ isLongest.fits begins).elim

end Longest

namespace Token.Parted

variable {rest front : List Char} {position : Nat} {tokens : List Token}

/-- The tokens of a parting are scanned first, and scanning goes on behind them. -/
theorem scanFrom_eq (parted : Token.Parted rest position front tokens) :
    Token.scanFrom 0 position (front ++ rest) =
      tokens.map .token ++
        Token.scanFrom 0 (position + String.utf8Len front) rest := by
  induction parted with
  | done => rfl
  | blank member _ induction =>
      have blank := Token.isBlank_iff_mem.mpr member
      simp only [List.cons_append, Token.scanFrom, blank, if_true, induction,
        String.utf8Len_cons, Nat.add_assoc, Nat.add_comm]
  | token isLongest _ induction =>
      have spells := Token.Kind.spells_iff_matches.mpr isLongest.fits
      obtain ⟨first, tail, rfl⟩ := spells.exists_cons
      rw [List.append_assoc, Token.scanFrom_of_longest? isLongest.longest?_eq, induction,
        String.utf8Len_append, Nat.add_assoc, List.map_cons, List.cons_append]

/-- Every token of a parting stands at its place. -/
theorem placed (parted : Token.Parted rest position front tokens) {token : Token}
    (member : token ∈ tokens) :
    ∃ before after, front = before ++ token.lexeme.toList ++ after ∧
      token.start = position + String.utf8Len before := by
  induction parted with
  | done => contradiction
  | blank _ _ induction =>
      obtain ⟨before, after, rfl, start⟩ := induction member
      refine ⟨_ :: before, after, rfl, ?_⟩
      rw [start, String.utf8Len_cons]
      omega
  | @token position kind lexeme front tokens _ _ induction =>
      rcases List.mem_cons.mp member with rfl | later
      · exact ⟨[], front, by rw [String.toList_ofList]; rfl, rfl⟩
      · obtain ⟨before, after, rfl, start⟩ := induction later
        refine ⟨lexeme ++ before, after, by simp only [List.append_assoc], ?_⟩
        rw [start, String.utf8Len_append, Nat.add_assoc]

end Token.Parted

/-- Every text can be parted up to its end or up to a stray character. -/
theorem Token.exists_parted (text : List Char) (position : Nat) :
    ∃ front back tokens, text = front ++ back ∧ Token.Parted back position front tokens ∧
      ∀ stray later, back = stray :: later → Token.IsStray stray later := by
  match text with
  | [] => exact ⟨[], [], [], rfl, .done, nofun⟩
  | first :: rest =>
      by_cases blank : Token.isBlank first
      · obtain ⟨front, back, tokens, rfl, parted, stops⟩ :=
          Token.exists_parted rest (position + first.utf8Size)
        exact ⟨first :: front, back, tokens, rfl,
          .blank (Token.isBlank_iff_mem.mp blank) parted, stops⟩
      · rw [Bool.not_eq_true] at blank
        cases found : Token.longest? first rest with
        | none =>
            refine ⟨[], first :: rest, [], rfl, .done, ?_⟩
            intro stray later same
            cases same
            exact Token.isStray_of_longest? blank found
        | some longest =>
            obtain ⟨kind, length⟩ := longest
            have isLongest := Token.isLongest_of_longest? found
            obtain ⟨front, back, tokens, same, parted, stops⟩ :=
              Token.exists_parted (rest.drop length)
                (position + String.utf8Len (first :: rest.take length))
            rw [same] at isLongest
            refine ⟨first :: rest.take length ++ front, back, _, ?_,
              .token isLongest parted, stops⟩
            rw [List.append_assoc, ← same, List.cons_append, List.take_append_drop]
termination_by text.length
decreasing_by
  · exact Nat.lt_succ_self _
  · rw [List.length_drop, List.length_cons]
    omega

theorem tokenize_of_parted {text : String} {tokens : List Token}
    (parted : Token.Parted [] 0 text.toList tokens) : tokenize text = .ok tokens := by
  have scanned := parted.scanFrom_eq
  rw [List.append_nil] at scanned
  rw [tokenize_eq_ok_iff, Token.scan, scanned, Token.scanFrom, List.append_nil]

theorem tokenize_of_parted_stray {text : String} {front later : List Char} {stray : Char}
    {tokens : List Token} (whole : text.toList = front ++ stray :: later)
    (parted : Token.Parted (stray :: later) 0 front tokens)
    (isStray : Token.IsStray stray later) :
    tokenize text = .error ⟨String.utf8Len front, stray⟩ := by
  rw [tokenize_eq_error_iff]
  refine ⟨tokens, Token.scanFrom 0 (String.utf8Len front + stray.utf8Size) later, ?_⟩
  rw [Token.scan, whole, parted.scanFrom_eq, Nat.zero_add]
  simp only [Token.scanFrom, isStray.isBlank_eq, isStray.longest?_eq, Bool.false_eq_true,
    if_false]

section Parting

variable {text : String}

theorem Token.parted_of_tokenize {tokens : List Token}
    (cut : tokenize text = .ok tokens) : Token.Parted [] 0 text.toList tokens := by
  obtain ⟨front, back, found, whole, parted, stops⟩ := Token.exists_parted text.toList 0
  cases back with
  | nil =>
      rw [List.append_nil] at whole
      rw [← whole] at parted
      rw [tokenize_of_parted parted] at cut
      cases cut
      exact parted
  | cons stray later =>
      rw [tokenize_of_parted_stray whole parted (stops stray later rfl)] at cut
      contradiction

theorem Token.exists_stray_of_tokenize {stray : Token.Unknown}
    (refused : tokenize text = .error stray) :
    ∃ front later tokens, text.toList = front ++ stray.found :: later ∧
      Token.Parted (stray.found :: later) 0 front tokens ∧
      Token.IsStray stray.found later ∧ stray.position = String.utf8Len front := by
  obtain ⟨front, back, tokens, whole, parted, stops⟩ := Token.exists_parted text.toList 0
  cases back with
  | nil =>
      rw [List.append_nil] at whole
      rw [← whole] at parted
      rw [tokenize_of_parted parted] at refused
      contradiction
  | cons found later =>
      have isStray := stops found later rfl
      rw [tokenize_of_parted_stray whole parted isStray] at refused
      cases refused
      exact ⟨front, later, tokens, whole, parted, isStray, rfl⟩

/-- Every token of a text stands in it at its offset in bytes. -/
theorem Token.stands_of_tokenize {tokens : List Token} (cut : tokenize text = .ok tokens)
    {token : Token} (member : token ∈ tokens) :
    ∃ before after, text = before ++ token.lexeme ++ after ∧
      token.start = before.utf8ByteSize ∧
        token.stop = (before ++ token.lexeme).utf8ByteSize := by
  obtain ⟨before, after, split, start⟩ := (Token.parted_of_tokenize cut).placed member
  rw [Nat.zero_add, ← String.utf8ByteSize_ofList] at start
  refine ⟨String.ofList before, String.ofList after, ?_, start, ?_⟩
  · apply String.toList_inj.mp
    simp only [String.toList_append, String.toList_ofList, split]
  · rw [Token.stop, start, String.utf8ByteSize_append]

end Parting

/-- A text is cut into tokens exactly when it consists of blanks and of tokens each of
which is the longest where it begins; these are its tokens, and each stands in the text
at its offset in bytes.  Any other text is refused at the first character behind such a
beginning at which there is neither a blank nor a token. -/
theorem tokenize_longest_match (text : String) :
    (∀ tokens, tokenize text = .ok tokens ↔ Token.Parted [] 0 text.toList tokens) ∧
    (∀ stray, tokenize text = .error stray ↔
      ∃ front later tokens, text.toList = front ++ stray.found :: later ∧
        Token.Parted (stray.found :: later) 0 front tokens ∧
        Token.IsStray stray.found later ∧ stray.position = String.utf8Len front) ∧
    ∀ tokens, tokenize text = .ok tokens → ∀ token ∈ tokens, ∃ before after,
      text = before ++ token.lexeme ++ after ∧ token.start = before.utf8ByteSize ∧
        token.stop = (before ++ token.lexeme).utf8ByteSize := by
  refine ⟨fun tokens => ⟨Token.parted_of_tokenize, tokenize_of_parted⟩, ?_,
    fun tokens cut token member => Token.stands_of_tokenize cut member⟩
  intro stray
  refine ⟨Token.exists_stray_of_tokenize, ?_⟩
  obtain ⟨position, found⟩ := stray
  rintro ⟨front, later, tokens, whole, parted, isStray, rfl⟩
  exact tokenize_of_parted_stray whole parted isStray

/-- Faces end before another digit; the letters in front of a d that no faces follow are
no token. -/
theorem digit_behind_fudge_dice_parted :
    Token.Parted [] 0 "4dF6".toList [⟨.dice, "4dF", 0⟩, ⟨.integer, "6", 3⟩] ∧
      (∃ before after, "4dF6" = before ++ "6" ++ after ∧ 3 = before.utf8ByteSize ∧
        4 = (before ++ "6").utf8ByteSize) ∧
      ∃ front later tokens, "12 mid".toList = front ++ 'm' :: later ∧
        Token.Parted ('m' :: later) 0 front tokens ∧ Token.IsStray 'm' later ∧
        3 = String.utf8Len front := by
  have cut : tokenize "4dF6" = .ok [⟨.dice, "4dF", 0⟩, ⟨.integer, "6", 3⟩] := by
    decide +kernel
  have refused : tokenize "12 mid" = .error ⟨3, 'm'⟩ := by
    decide +kernel
  obtain ⟨accepted, _, placed⟩ := tokenize_longest_match "4dF6"
  obtain ⟨_, stops, _⟩ := tokenize_longest_match "12 mid"
  exact ⟨(accepted _).mp cut, placed _ cut ⟨.integer, "6", 3⟩ (by simp),
    (stops _).mp refused⟩

end DiceOdds
