import TruthExpr.Proofs.FailureShape
import TruthExpr.Proofs.LongestSentence
import TruthExpr.Proofs.ViablePrefix

/-! # Error positions — where the two readers find fault with a text

    A reader by tokens never looks back, so it stops where its text can no
    longer become a sentence: behind the longest viable beginning.  The
    descent drops an operator whose operand does not match, and so may stop
    earlier.  The route:

    * `StopsAt` says where reading by tokens stops, from the tokens alone;
      the machine stops there (`machine_stops`), and that is behind the
      longest viable beginning (`StopsAt.longest`);
    * `HaltsFrom`: where the descent stops, whole tokens have been taken that
      can go on, and none that can go on stands there, except an operator
      (`reading_halts`);
    * `error_positions`: so the readers stop in one place unless an operator
      follows an operand there. -/

namespace TruthExpr

/-- What is left behind some tokens cannot be taken: it is nothing, and
    something is still wanted; or no token begins it; or one does that may not
    follow. -/
inductive Refused (ts : List Token) : List Char → Prop where
  | endOfText : (operandDue ts = true ∨ ts.count .closing < ts.count .opening) → Refused ts []
  | character {r : List Char} : r ≠ [] → (∀ t : Token, ¬ t.text.toList <+: r) → Refused ts r
  | token {t : Token} {r : List Char} : admits ts t = false → Refused ts (t.text.toList ++ r)

/-- Reading `s` by tokens stops with an error behind `n` characters. -/
def StopsAt (s : List Char) (n : Nat) : Prop :=
  ∃ ts r, s = spell ts ++ r ∧ n = (spell ts).length ∧ Fluent ts ∧ Refused ts r

/-- The text ends with a token that is an operand or the end of one. -/
def EndsOperand (s : List Char) : Prop :=
  ∃ ts t, s = spell (ts ++ [t]) ∧ t.endsOperand = true

/-- An operator follows an operand. -/
def OperatorAhead (before after : List Char) : Prop :=
  EndsOperand before ∧ ("&&".toList <+: after ∨ "||".toList <+: after)

theorem endsOperand_iff {ts : List Token} : EndsOperand (spell ts) ↔ operandDue ts = false := by
  constructor
  · rintro ⟨us, t, hspell, ht⟩
    rw [spell_injective hspell, operandDue_concat, ht]
    rfl
  · intro h
    cases hlast : ts.getLast? with
    | none =>
        rw [operandDue, hlast] at h
        cases h
    | some t =>
        obtain ⟨us, rfl⟩ := List.getLast?_eq_some_iff.mp hlast
        rw [operandDue_concat] at h
        exact ⟨us, t, rfl, by simpa using h⟩

theorem Fluent.concat {ts : List Token} {t : Token} (h : Fluent ts) (ht : admits ts t = true) :
    Fluent (ts ++ [t]) := by
  intro us u hpre
  rcases List.prefix_concat_iff.mp hpre with heq | hpre
  · obtain ⟨rfl, rfl⟩ := List.concat_inj.mp (by simpa using heq)
    exact ht
  · exact h us u hpre

/-! ## Where reading by tokens stops -/

/-- Nothing viable goes beyond what is refused. -/
theorem StopsAt.longest {s : List Char} {n : Nat} (h : StopsAt s n) : LongestViable s n := by
  obtain ⟨ts, r, rfl, rfl, hfluent, hrefused⟩ := h
  refine ⟨by rw [List.length_append]; omega, ?_, ?_⟩
  · rw [List.take_left]
    exact viable_spell_iff.mpr hfluent
  · intro t ht hviable
    obtain ⟨us, rfl⟩ := hviable.1
    by_cases hle : (spell us).length ≤ (spell ts).length
    · exact hle
    · -- a longer one would have taken a token from what is left
      have hpre : spell ts <+: spell us :=
        List.prefix_of_prefix_length_le (List.prefix_append _ r) ht (by omega)
      obtain ⟨w, hw⟩ := hpre
      obtain ⟨vs, rfl, rfl⟩ := spell_prefix hw
      rw [spell_append, List.prefix_append_right_inj] at ht
      cases vs with
      | nil =>
          rw [List.append_nil] at hle
          exact absurd (Nat.le_refl _) hle
      | cons v vs =>
          have hadmits : admits ts v = true :=
            (viable_spell_iff.mp hviable) ts v (by simp)
          rw [spell_cons] at ht
          have hv : v.text.toList <+: r := (List.prefix_append _ _).trans ht
          cases hrefused with
          | endOfText => exact absurd (List.prefix_nil.mp hv) v.text_ne_nil
          | character _ hnone => exact absurd hv (hnone v)
          | @token t r hnot =>
              obtain ⟨x, hx⟩ := hv
              obtain ⟨rfl, -⟩ := Token.eq_of_append hx
              rw [hadmits] at hnot
              cases hnot

namespace Machine

variable {m : Machine} {ts : List Token}

/-- A machine that cannot finish wants an operand or has a group open. -/
theorem unfinished (h : m.Tracks ts) (hfin : m.finish = none) :
    operandDue ts = true ∨ ts.count .closing < ts.count .opening := by
  cases m with
  | wantsOperand stack => exact Or.inl h.wants.symm
  | wantsOperator e stack =>
      have hgroups := h.groups
      change stack.count .group + ts.count .closing = ts.count .opening at hgroups
      obtain ⟨x, ⟨hc, -⟩ | ⟨rest, -, hcount, -⟩⟩ := closeTerm_eq h.holds
      · rw [finish_iff.mpr hc] at hfin
        cases hfin
      · exact Or.inr (by omega)

/-- A run that is refused has taken whole tokens up to its position. -/
theorem run_refused (s : List Char) :
    ∀ {ts : List Token} {position : Nat} {m : Machine} {last : Option Lexeme} {r : Refusal},
      m.Tracks ts →
      run (Scan.ofChars position s).stop m last (Scan.ofChars position s).lexemes = .error r →
      ∃ us rest m₁, s = spell us ++ rest ∧ m.feed us = some m₁ ∧ Refused (ts ++ us) rest ∧
        r.position (position + s.length) = position + (spell us).length := by
  induction hlen : s.length using Nat.strongRecOn generalizing s with
  | ind n ih =>
      intro ts position m last r h hrun
      rcases Scan.first_token s with rfl | ⟨t, rest, rfl⟩ | ⟨c, rest, rfl, hstop, hnone⟩
      · change run none m last [] = .error r at hrun
        rw [run] at hrun
        cases hfin : m.finish with
        | some e => rw [hfin] at hrun; cases hrun
        | none =>
            rw [hfin] at hrun
            cases hrun
            refine ⟨[], [], m, rfl, rfl, ?_, by rw [← hlen]; rfl⟩
            rw [List.append_nil]
            exact .endOfText (unfinished h hfin)
      · rw [Scan.ofChars_token] at hrun
        change run _ m last (⟨t, position⟩ :: _) = .error r at hrun
        rw [run] at hrun
        cases hstep : m.step t with
        | none =>
            have hadmits := isSome_step h t
            rw [hstep] at hadmits hrun
            cases hrun
            refine ⟨[], t.text.toList ++ rest, m, rfl, rfl, ?_, rfl⟩
            rw [List.append_nil]
            exact .token hadmits.symm
        | some m₁ =>
            have hlt : rest.length < n := by
              have hpos := List.length_pos_iff.mpr t.text_ne_nil
              rw [← hlen, List.length_append]
              omega
            rw [hstep] at hrun
            obtain ⟨us, rest₁, m₂, rfl, hfeed, hrefused, hposition⟩ :=
              ih _ hlt rest rfl (step_tracks h hstep) hrun
            refine ⟨t :: us, rest₁, m₂, ?_, (feed_of_step hstep us).trans hfeed, ?_, ?_⟩
            · rw [spell_cons, List.append_assoc]
            · rw [List.append_assoc] at hrefused
              exact hrefused
            · have htext : t.text.toList.length = t.text.length := String.length_toList
              rw [spell_cons, List.length_append, htext, ← Nat.add_assoc, ← hposition, ← hlen,
                List.length_append, htext, Nat.add_assoc]
      · rw [hstop] at hrun
        change run (some (position, c)) m last [] = .error r at hrun
        rw [run] at hrun
        cases hrun
        refine ⟨[], c :: rest, m, rfl, rfl, ?_, rfl⟩
        rw [List.append_nil]
        exact .character (List.cons_ne_nil _ _) hnone

/-- The machine refuses a text that is no sentence, where reading by tokens
    stops. -/
theorem machine_stops {text : String} (h : ¬ Sentence text.toList) :
    ∃ (x : ReadError) (n : Nat), Machine.readExpr text = .error x ∧ x.position = n ∧
      StopsAt text.toList n := by
  cases hread : Machine.read text.toList with
  | ok e => exact absurd ⟨e, (read_eq_ok_iff _ e).mp hread⟩ h
  | error r =>
      obtain ⟨ts, rest, m, hspell, hfeed, hrefused, hposition⟩ :=
        run_refused text.toList tracks_start hread
      refine ⟨r.toError text.toList, (spell ts).length, ?_, ?_, ts, rest, hspell, rfl,
        (feed_start_iff ts).mp ⟨m, hfeed⟩, hrefused⟩
      · rw [Machine.readExpr, hread]
        rfl
      · rw [Nat.zero_add, Nat.zero_add] at hposition
        show (r.position text.toList.length : Int) = _
        rw [hposition]

end Machine

/-! ## Where the descent stops -/

namespace Grammar

open Machine

variable {c c₁ : Cursor} {f : Failure} {position : Int}

/-- No token that stands there may follow the others, except an operator. -/
def NoOperandAhead (ts : List Token) (r : List Char) : Prop :=
  ∀ t : Token, t.text.toList <+: r → admits ts t = true → t = .andSign ∨ t = .orSign

/-- From `c`, where an operand is due, whole tokens lead to the position, and
    nothing there but an operator can follow them. -/
def HaltsFrom (c : Cursor) (position : Int) (ts : List Token) (stack : List Open) : Prop :=
  ∃ us m c₁, c.Spans (spell us) c₁ ∧ position = c₁.pos ∧
    (wantsOperand stack).feed us = some m ∧ NoOperandAhead (ts ++ us) c₁.left

/-- A token that opens something leads to where an operand is due again. -/
theorem HaltsFrom.cons {t : Token} {o : Open} {ts : List Token} {stack : List Open}
    (hstep : (wantsOperand stack).step t = some (wantsOperand (o :: stack)))
    (hs : c.Spans t.text.toList c₁) (h : HaltsFrom c₁ position (ts ++ [t]) (o :: stack)) :
    HaltsFrom c position ts stack := by
  obtain ⟨us, m, c₂, hspans, hpos, hfeed, hahead⟩ := h
  refine ⟨t :: us, m, c₂, hs.trans hspans, hpos, (feed_of_step hstep us).trans hfeed, ?_⟩
  rw [List.append_assoc] at hahead
  exact hahead

/-- Behind an expression that is not followed by a parenthesis to close, only
    an operator can follow. -/
theorem noOperandAhead_of_operator {e : Expr} {stack : List Open} {ts : List Token} {r : List Char}
    (h : (wantsOperator e stack).Tracks ts)
    (hclose : ")".toList <+: r → admits ts .closing = false) : NoOperandAhead ts r := by
  have hdue : operandDue ts = false := h.wants.symm
  intro t hr ht
  cases t with
  | andSign => exact Or.inl rfl
  | orSign => exact Or.inr rfl
  | closing =>
      rw [hclose hr] at ht
      cases ht
  | trueWord | falseWord | bang | opening =>
      simp only [admits, hdue] at ht
      cases ht

/-- A whole expression leads from where an operand is due to where none is,
    and closes a parenthesis there only if one is open before it. -/
theorem haltsFrom_of_derives {s : List Char} {e : Expr} (h : Derives .expr s e)
    {ts : List Token} {stack : List Open} (hexpr : AtExpr stack)
    (htracks : (wantsOperand stack).Tracks ts) (hs : c.Spans s c₁)
    (hclose : stack = [] ∨ c₁.startsWith ")" = false) : HaltsFrom c c₁.pos ts stack := by
  obtain ⟨us, rfl, hfeeds⟩ := h.feeds
  obtain ⟨x, stack₁, hfeed, hcomplete⟩ := hfeeds stack hexpr
  have htracks₁ := feed_tracks us htracks hfeed
  refine ⟨us, _, c₁, hs, rfl, hfeed, noOperandAhead_of_operator htracks₁ ?_⟩
  intro hpre
  rcases hclose with rfl | hclose
  · -- with nothing open, the machine cannot take the parenthesis
    rw [← isSome_step htracks₁]
    simp [step, hcomplete]
  · rw [(Cursor.startsWith_iff c₁ ")").mpr ⟨hs.inside_next.2, hpre⟩] at hclose
    cases hclose

/-- Where a factor fails, an operand is due that does not begin there, or a
    group is open that is not closed there. -/
theorem FactorFails.halts (h : FactorFails c f) (hc : c.Inside) :
    ∀ {ts : List Token} {stack : List Open}, (wantsOperand stack).Tracks ts →
      HaltsFrom c f.position ts stack := by
  induction h with
  | @operand c hbang hopen ht hf =>
      intro ts stack htracks
      have hdue : operandDue ts = true := htracks.wants.symm
      have hnone : ∀ {lead : String}, c.startsWith lead = false → ¬ lead.toList <+: c.left := by
        intro lead hs hpre
        rw [(Cursor.startsWith_iff c lead).mpr ⟨hc.2, hpre⟩] at hs
        cases hs
      refine ⟨[], _, c, hc.spans_nil, rfl, rfl, ?_⟩
      rw [List.append_nil]
      intro t hr hadmits
      cases t with
      | trueWord => exact absurd hr (hnone ht)
      | falseWord => exact absurd hr (hnone hf)
      | bang => exact absurd hr (hnone hbang)
      | opening => exact absurd hr (hnone hopen)
      | closing | andSign | orSign =>
          simp only [admits, hdue] at hadmits
          cases hadmits
  | @negation c f hbang _ ih =>
      intro ts stack htracks
      have hs := (Cursor.startsWith_iff_spans hc "!").mp hbang
      exact HaltsFrom.cons (t := .bang) rfl hs (ih hs.inside_next (step_tracks htracks rfl))
  | @unclosed c c₁ e hopen hrun hclose =>
      intro ts stack htracks
      have hs := (Cursor.startsWith_iff_spans hc "(").mp hopen
      obtain ⟨s, hspans, hd⟩ := reads_expr _ hs.inside_next hrun
      have hexpr : AtExpr (.group :: stack) := trivial
      exact HaltsFrom.cons (t := .opening) rfl hs
        (haltsFrom_of_derives hd hexpr (step_tracks htracks rfl) hspans (Or.inr hclose))
  | @group c f hopen _ _ ih =>
      intro ts stack htracks
      have hs := (Cursor.startsWith_iff_spans hc "(").mp hopen
      exact HaltsFrom.cons (t := .opening) rfl hs (ih hs.inside_next (step_tracks htracks rfl))

end Grammar

namespace Reading

open Grammar

variable {text : String}

/-- The descent refuses a text that is no sentence behind whole tokens that
    can go on, but only with an operator if something stands there. -/
theorem reading_halts (h : ¬ Sentence text.toList) (hdepth : ¬ OutOfDepth text) :
    ∃ (y : ReadError) (ts : List Token) (r : List Char),
      readExpr text = .error y ∧ y.kind ≠ .general ∧ y.position = (spell ts).length ∧
      text.toList = spell ts ++ r ∧ Fluent ts ∧ NoOperandAhead ts r := by
  have hfrom : ∀ {position : Int}, HaltsFrom (Cursor.ofString text) position [] [] →
      ∃ (ts : List Token) (r : List Char), position = (spell ts).length ∧
        text.toList = spell ts ++ r ∧ Fluent ts ∧ NoOperandAhead ts r := by
    rintro position ⟨ts, m, c, hspans, rfl, hfeed, hahead⟩
    refine ⟨ts, c.left, ?_, ?_, (Machine.feed_start_iff ts).mp ⟨m, hfeed⟩, hahead⟩
    · rw [hspans.pos_eq]
      exact Int.zero_add _
    · rw [← hspans.left, Cursor.left_ofString]
  have hinside := Cursor.inside_ofString text
  cases hread : readExpr text with
  | ok e => exact absurd ⟨e, readExpr_ok_iff.mp hread⟩ h
  | error y =>
      rcases refusal_cases hread with ⟨f, hrun, rfl⟩ | ⟨e, c, hrun, rfl⟩ | ⟨hdeep, -⟩
      · obtain ⟨g, hfactor, rfl⟩ := expr_failed hrun
        obtain ⟨ts, r, hpos, hrest⟩ :=
          hfrom ((factor_fails hfactor).halts hinside Machine.tracks_start)
        exact ⟨_, ts, r, rfl, (fun hk => nomatch hk), hpos, hrest⟩
      · obtain ⟨s, hspans, hd⟩ := reads_expr _ hinside hrun
        obtain ⟨ts, r, hpos, hrest⟩ :=
          hfrom (haltsFrom_of_derives hd trivial Machine.tracks_start hspans (Or.inl rfl))
        exact ⟨_, ts, r, rfl, (fun hk => nomatch hk), hpos, hrest⟩
      · exact absurd hdeep hdepth

/-- A text is never refused outside itself, be it too deep or not. -/
theorem position_of_refusal {x : ReadError} (h : readExpr text = .error x) :
    ∃ n : Nat, x.position = n ∧ n ≤ text.length := by
  by_cases hdepth : OutOfDepth text
  · rw [readExpr, parse, hdepth] at h
    cases h
    exact ⟨0, rfl, Nat.zero_le _⟩
  · have hnot : ¬ Sentence text.toList := by
      rintro ⟨e, he⟩
      rw [readExpr_ok_iff.mpr he] at h
      cases h
    obtain ⟨y, ts, r, hy, -, hpos, htext, -⟩ := reading_halts hnot hdepth
    obtain rfl : x = y := Except.error.inj (h.symm.trans hy)
    refine ⟨(spell ts).length, hpos, ?_⟩
    rw [← String.length_toList, htext, List.length_append]
    omega

end Reading

/-! ## The two positions -/

/-- Where only an operator can follow, reading by tokens stops as well, unless
    one does. -/
theorem stopsAt_of_noOperandAhead {ts : List Token} {r : List Char}
    (h : ¬ Sentence (spell ts ++ r)) (hfluent : Fluent ts)
    (hahead : Grammar.NoOperandAhead ts r) (hnone : ¬ OperatorAhead (spell ts) r) :
    StopsAt (spell ts ++ r) (spell ts).length := by
  refine ⟨ts, r, rfl, rfl, hfluent, ?_⟩
  rcases Scan.first_token r with rfl | ⟨t, rest, rfl⟩ | ⟨c, rest, rfl, -, hchar⟩
  · obtain ⟨m, hfeed⟩ := (Machine.feed_start_iff ts).mpr hfluent
    refine .endOfText (Machine.unfinished (Machine.feed_tracks ts Machine.tracks_start hfeed) ?_)
    rw [List.append_nil] at h
    cases hfin : m.finish with
    | none => rfl
    | some e =>
        have hread := (Machine.read_ok_iff (spell ts) e).mpr ⟨ts, m, rfl, hfeed, hfin⟩
        exact absurd ⟨e, (Machine.read_eq_ok_iff _ e).mp hread⟩ h
  · refine .token (Bool.eq_false_iff.mpr ?_)
    intro hadmits
    have hends : ∀ {op : Token}, op = .andSign ∨ op = .orSign → admits ts op = true →
        EndsOperand (spell ts) := by
      rintro op (rfl | rfl) hop <;> exact endsOperand_iff.mpr (by simpa [admits] using hop)
    have hop := hahead t (List.prefix_append _ _) hadmits
    refine hnone ⟨hends hop hadmits, ?_⟩
    rcases hop with rfl | rfl
    · exact Or.inl (List.prefix_append _ _)
    · exact Or.inr (List.prefix_append _ _)
  · exact .character (List.cons_ne_nil _ _) hchar

/-- Where an operator follows an operand, it is viable to go on with it. -/
theorem viable_of_operatorAhead {ts : List Token} {r : List Char} (hfluent : Fluent ts)
    (h : OperatorAhead (spell ts) r) :
    ∃ t, t <+: spell ts ++ r ∧ Viable t ∧ t.length = (spell ts).length + 2 := by
  obtain ⟨hends, hr⟩ := h
  have hdue := endsOperand_iff.mp hends
  have hnext : ∀ op : Token, op.text.toList <+: r → admits ts op = true →
      op.text.toList.length = 2 →
      ∃ t, t <+: spell ts ++ r ∧ Viable t ∧ t.length = (spell ts).length + 2 := by
    intro op hpre hop hlen
    refine ⟨spell (ts ++ [op]), ?_, viable_spell_iff.mpr (hfluent.concat hop), ?_⟩
    · rw [spell_append, spell_singleton]
      exact (List.prefix_append_right_inj _).mpr hpre
    · rw [spell_append, spell_singleton, List.length_append, hlen]
  rcases hr with hr | hr
  · exact hnext .andSign hr (by simp [admits, hdue]) rfl
  · exact hnext .orSign hr (by simp [admits, hdue]) rfl

/-- ERROR POSITIONS: a text that is no sentence is refused by the token
    machine, and by every reader that stops by the same rules, behind the
    longest beginning that is made of whole tokens and can be extended to a
    sentence.  If the text is not too deep for the descent, the descent refuses
    it behind such a beginning as well, which is a shorter one just if an
    operator follows an operand there. -/
theorem error_positions (text : String) (h : ¬ Sentence text.toList) :
    (∀ n, StopsAt text.toList n → LongestViable text.toList n) ∧
    ∃ (x : ReadError) (n : Nat),
      (Machine.readExpr text = .error x ∧ x.position = n ∧ StopsAt text.toList n ∧
        LongestViable text.toList n) ∧
      (¬ Reading.OutOfDepth text → ∃ (y : ReadError) (k : Nat),
        Reading.readExpr text = .error y ∧ y.kind ≠ .general ∧ y.position = k ∧ k ≤ n ∧
        Viable (text.toList.take k) ∧
        (k < n ↔ OperatorAhead (text.toList.take k) (text.toList.drop k)) ∧
        (OperatorAhead (text.toList.take k) (text.toList.drop k) → k + 2 ≤ n) ∧
        (¬ OperatorAhead (text.toList.take k) (text.toList.drop k) → k = n)) := by
  refine ⟨fun n hn => hn.longest, ?_⟩
  obtain ⟨x, n, hx, hxn, hstops⟩ := Machine.machine_stops h
  have hlong := hstops.longest
  refine ⟨x, n, ⟨hx, hxn, hstops, hlong⟩, ?_⟩
  intro hdepth
  obtain ⟨y, ts, r, hy, hkind, hposition, htext, hfluent, hahead⟩ :=
    Reading.reading_halts h hdepth
  refine ⟨y, (spell ts).length, hy, hkind, hposition, ?_⟩
  rw [htext] at h hlong ⊢
  rw [List.take_left, List.drop_left]
  have hviable : Viable (spell ts) := viable_spell_iff.mpr hfluent
  have hle : (spell ts).length ≤ n := hlong.longest _ (List.prefix_append _ r) hviable
  have hgo : OperatorAhead (spell ts) r → (spell ts).length + 2 ≤ n := by
    intro hop
    obtain ⟨t, hpre, ht, hlen⟩ := viable_of_operatorAhead hfluent hop
    rw [← hlen]
    exact hlong.longest t hpre ht
  have hstay : ¬ OperatorAhead (spell ts) r → (spell ts).length = n := fun hop =>
    (stopsAt_of_noOperandAhead h hfluent hahead hop).longest.unique hlong
  refine ⟨hle, hviable, ⟨?_, ?_⟩, hgo, hstay⟩
  · intro hlt
    by_cases hop : OperatorAhead (spell ts) r
    · exact hop
    · have heq := hstay hop
      omega
  · intro hop
    have hlt := hgo hop
    omega

/-- Behind the operand in a group, the descent drops an operator that the
    machine takes. -/
theorem error_positions_dropped_operator :
    ¬ Sentence "(true&&)".toList ∧ ¬ Reading.OutOfDepth "(true&&)" ∧
      ∃ k n : Nat, (5 : Int) = k ∧ (7 : Int) = n ∧ k < n ∧
        LongestViable "(true&&)".toList n ∧
        OperatorAhead ("(true&&)".toList.take k) ("(true&&)".toList.drop k) := by
  have h : ¬ Sentence "(true&&)".toList := by
    rintro ⟨e, he⟩
    have hread := Reading.readExpr_ok_iff.mpr he
    exact nomatch hread
  have hdepth : ¬ Reading.OutOfDepth "(true&&)" := fun hdeep => nomatch hdeep
  obtain ⟨x, n, ⟨hx, hn, -, hlong⟩, hrest⟩ := (error_positions "(true&&)" h).2
  obtain ⟨y, k, hy, -, hk, -, -, hiff, -⟩ := hrest hdepth
  cases hx
  cases hy
  change (5 : Int) = k at hk
  change (7 : Int) = n at hn
  have hlt : k < n := by omega
  exact ⟨h, hdepth, k, n, hk, hn, hlt, hlong, hiff.mp hlt⟩

end TruthExpr
