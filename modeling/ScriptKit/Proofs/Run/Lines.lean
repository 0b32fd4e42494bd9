import ScriptKit.Builtin
import ScriptKit.Proofs.Format.Settled
import ScriptKit.Proofs.Text.Decimal

/-!
# Lines that are read back

`WriteLine` writes a value and a line feed, and `ReadLine` gives an integer for a line that is a numeral and the line
itself otherwise. What one program writes another can read, but not every text survives: a line feed in it would split
the line, a carriage return at its end would be taken off, and a text that is a numeral would come back as an integer.
`Value.IsLine` rules out just these.

**Theorem (`readLine_undoes_writeLine`).** Values that make lines are written one after the other, and from what was
written the same values are read in the same order. Then the input is at its end, and reading fails.
-/

namespace ScriptKit

/-! ## Calling a builtin again and again -/

/-- Call a builtin with one list of arguments after the other, up to the first failure. -/
def Builtin.calls (b : Builtin) : List (List Value) → World → Except Builtin.Fault (List (Option Value)) × World
  | [], w => (.ok [], w)
  | args :: rest, w =>
    match b.run args w with
    | (.error fault, w) => (.error fault, w)
    | (.ok v, w) =>
      match b.calls rest w with
      | (.error fault, w) => (.error fault, w)
      | (.ok vs, w) => (.ok (v :: vs), w)

theorem Builtin.calls_cons {b : Builtin} {args : List Value} {rest : List (List Value)} {w w₁ w₂ : World}
    {v : Option Value} {vs : List (Option Value)} (h : b.run args w = (.ok v, w₁))
    (hrest : b.calls rest w₁ = (.ok vs, w₂)) : b.calls (args :: rest) w = (.ok (v :: vs), w₂) := by
  rw [calls, h]
  simp only [hrest]

/-! ## Values that make lines -/

/-- A text that is kept when it is read as a line. -/
structure IsLineText (t : Text) : Prop where
  settled : t.Settled
  unbroken : .char '\n' ∉ t
  noReturn : t.getLast? ≠ some (.char '\r')

/-- A value that comes back from the line it is written as. -/
def Value.IsLine : Value → Prop
  | .int _ => True
  | .str t => IsLineText t ∧ ¬t.IsNumeral32
  | .bool _ => False

/-- The text of values, each followed by a line feed. -/
def linesOf (vs : List Value) : Text := vs.flatMap fun v => v.text ++ [.char '\n']

section Lines

variable {v : Value} {vs : List Value} {w : World} {t rest : Text}

theorem isLineText_ofInt (n : Int) : IsLineText (Text.ofInt n) := by
  have hparts : ∀ g ∈ Text.ofInt n, g = .char '-' ∨ g.isNumeralPart = true := by
    cases n with
    | ofNat n => exact fun g hg => .inr (Text.isNumeralPart_of_mem_ofNat n g hg)
    | negSucc n =>
      exact List.forall_mem_cons.2 ⟨.inl rfl, fun g hg => .inr (Text.isNumeralPart_of_mem_ofNat _ g hg)⟩
  constructor
  · refine (sealed_of_isChar fun g hg => ?_).settled
    cases g with
    | char c => rfl
    | stray b => rcases hparts _ hg with h | h <;> cases h
  · intro hfeed
    rcases hparts _ hfeed with h | h <;> cases h
  · intro hlast
    rcases hparts _ (List.mem_of_getLast? hlast) with h | h <;> cases h

theorem Value.IsLine.text (h : v.IsLine) : IsLineText v.text := by
  cases v with
  | int n => exact isLineText_ofInt n.toInt
  | str t => exact h.1
  | bool b => exact h.elim

/-- A value that makes a line is what its text is read as. -/
theorem Value.IsLine.ofLine (h : v.IsLine) : Value.ofLine v.text = v := by
  cases v with
  | int n => rw [Value.ofLine, Value.text, Text.readInt32_ofInt]
  | str t => rw [Value.ofLine, Value.text, Text.readInt32_eq_none_iff.2 h.2]
  | bool b => exact h.elim

/-! ## Writing -/

/-- Where writing does not fail, values are written line by line. -/
theorem calls_writeLine (vs : List Value) (hw : w.writesLeft = none) :
    ∃ w', Builtin.writeLine.calls (vs.map fun v => [v]) w = (.ok (vs.map fun _ => none), w') ∧
      w'.output = w.output ++ linesOf vs := by
  induction vs generalizing w with
  | nil => exact ⟨w, rfl, (List.append_nil _).symm⟩
  | cons v vs ih =>
    obtain ⟨w', hcalls, houtput⟩ := ih (w := { w with written := (v.text ++ "\n") :: w.written }) hw
    have hrun : Builtin.writeLine.run [v] w = (.ok none, { w with written := (v.text ++ "\n") :: w.written }) := by
      show Builtin.runWriteLine [v] w = _
      rw [Builtin.runWriteLine, World.write, hw]
    refine ⟨w', Builtin.calls_cons hrun hcalls, ?_⟩
    rw [houtput]
    simp [World.output, linesOf, Text.ofString, Text.ofChars]

/-! ## Reading -/

theorem dropRightWhile_of_last {p : Glyph → Bool} (h : ∀ g, t.getLast? = some g → p g = false) :
    Text.dropRightWhile p t = t := by
  rw [Text.dropRightWhile]
  cases hrev : t.reverse with
  | nil => rw [List.dropWhile_nil, List.reverse_nil, ← List.reverse_eq_nil_iff.1 hrev]
  | cons g front =>
    have hlast : t.getLast? = some g := by rw [List.getLast?_eq_head?_reverse, hrev]; rfl
    rw [List.dropWhile_cons_of_neg (by simp [h g hlast]), ← hrev, List.reverse_reverse]

/-- A line is read up to its line feed. -/
theorem readLine_line (ht : IsLineText t) (hw : w.input = t ++ .char '\n' :: rest) :
    w.readLine = (.line t, { w with input := rest }) := by
  have hfeed : ∀ g ∈ t, (!World.isLineFeed g) = true := by
    intro g hg
    simpa [World.isLineFeed] using ne_of_mem_of_not_mem hg ht.unbroken
  have hends : ∀ g, t.getLast? = some g → World.isLineEnd g = false := by
    intro g hg
    have hnofeed : g ≠ .char '\n' := ne_of_mem_of_not_mem (List.mem_of_getLast? hg) ht.unbroken
    have hnoreturn : g ≠ .char '\r' := fun heq => ht.noReturn (heq ▸ hg)
    simp [World.isLineEnd, hnofeed, hnoreturn]
  have hbreaks : Breaks (fun g => !World.isLineFeed g) (.char '\n' :: rest) := by
    rintro _ ⟨⟩
    rfl
  obtain ⟨htake, hdrop⟩ := takeWhile_append_boundary hfeed hbreaks
  rw [World.readLine, hw, htake, hdrop]
  simp only [dropRightWhile_of_last hends]

/-- The values of lines are read one after the other. -/
theorem calls_readLine (hvs : ∀ v ∈ vs, v.IsLine) (hw : w.input = linesOf vs ++ rest) :
    Builtin.readLine.calls (List.replicate vs.length []) w = (.ok (vs.map some), { w with input := rest }) := by
  induction vs generalizing w with
  | nil =>
    obtain rfl : w.input = rest := hw
    rfl
  | cons v vs ih =>
    obtain ⟨hv, hvs⟩ := List.forall_mem_cons.1 hvs
    have hline : w.readLine = (.line v.text, { w with input := linesOf vs ++ rest }) :=
      readLine_line hv.text (by simpa [linesOf] using hw)
    have hrun : Builtin.readLine.run [] w = (.ok (some v), { w with input := linesOf vs ++ rest }) := by
      show Builtin.runReadLine [] w = _
      rw [Builtin.runReadLine, hline]
      simp only [hv.ofLine]
    exact Builtin.calls_cons hrun (ih hvs rfl)

/-- Where no input is left, reading fails. -/
theorem run_readLine_end (hw : w.input = []) : ∃ detail, (Builtin.readLine.run [] w).1 = .error (.io detail) := by
  show ∃ detail, (Builtin.runReadLine [] w).1 = _
  rw [Builtin.runReadLine, World.readLine, hw]
  cases w.inputFails with
  | false => exact ⟨_, rfl⟩
  | true => exact ⟨_, rfl⟩

/-- Lines are read as they were written. -/
theorem settled_linesOf (hvs : ∀ v ∈ vs, v.IsLine) : (linesOf vs).Settled := by
  induction vs with
  | nil => rfl
  | cons v vs ih =>
    obtain ⟨hv, hvs⟩ := List.forall_mem_cons.1 hvs
    have hrest : Text.Settled (.char '\n' :: linesOf vs) := (Text.settled_char_iff _ _).2 (ih hvs)
    have hline := hv.text.settled.append_char hrest
    rw [linesOf, List.flatMap_cons, List.append_assoc]
    exact hline

/-! ## There and back -/

/-- Values that make lines are written with `WriteLine` where writing does not fail, and whoever reads the bytes that
were written gets the same values from as many calls of `ReadLine`, in the same order. The next call fails with an I/O
failure. -/
theorem readLine_undoes_writeLine (hvs : ∀ v ∈ vs, v.IsLine) (hw : w.writesLeft = none) :
    ∃ w' text, Builtin.writeLine.calls (vs.map fun v => [v]) w = (.ok (vs.map fun _ => none), w') ∧
      w'.output = w.output ++ text ∧
      (∀ r : World, r.input = Text.ofBytes text.toBytes →
        ∃ r', Builtin.readLine.calls (List.replicate vs.length []) r = (.ok (vs.map some), r') ∧
          ∃ detail, (Builtin.readLine.run [] r').1 = .error (.io detail)) ∧
      ∀ n : Int32, (Value.str (Value.int n).text).toInt? = some n := by
  obtain ⟨w', hcalls, houtput⟩ := calls_writeLine vs hw
  refine ⟨w', linesOf vs, hcalls, houtput, fun r hr => ?_, fun n => Text.readInt32_ofInt n⟩
  rw [settled_linesOf hvs] at hr
  exact ⟨_, calls_readLine hvs (hr.trans (List.append_nil _).symm), run_readLine_end rfl⟩

/-- Texts that are almost numerals, among them the empty one. -/
def lineTexts : List Text := ["", "2147483648", "-2147483649", "+-1", "-", "1 ", "\r1"]

/-- The integers at their limits and these texts. -/
def lineValues : List Value := .int (-2147483648) :: .int 2147483647 :: lineTexts.map .str

theorem readLine_undoes_writeLine_limits :
    ∃ w' text r',
      Builtin.writeLine.calls (lineValues.map fun v => [v]) {} = (.ok (lineValues.map fun _ => none), w') ∧
      w'.output = World.output {} ++ text ∧
      Builtin.readLine.calls (List.replicate lineValues.length []) { input := Text.ofBytes text.toBytes } =
        (.ok (lineValues.map some), r') ∧
      ∃ detail, (Builtin.readLine.run [] r').1 = .error (.io detail) := by
  have htexts : ∀ t ∈ lineTexts, Text.ofBytes t.toBytes = t ∧ .char '\n' ∉ t ∧ t.getLast? ≠ some (.char '\r') ∧
      t.readInt32 = none := by decide +kernel
  have hlines : ∀ v ∈ lineValues, v.IsLine := by
    refine List.forall_mem_cons.2 ⟨trivial, List.forall_mem_cons.2 ⟨trivial, fun v hv => ?_⟩⟩
    obtain ⟨t, ht, rfl⟩ := List.mem_map.1 hv
    obtain ⟨hsettled, hfeed, hreturn, hread⟩ := htexts t ht
    exact ⟨⟨hsettled, hfeed, hreturn⟩, Text.readInt32_eq_none_iff.1 hread⟩
  obtain ⟨w', text, hwrite, houtput, hread, -⟩ := readLine_undoes_writeLine (w := {}) hlines rfl
  obtain ⟨r', hcalls, hend⟩ := hread { input := Text.ofBytes text.toBytes } rfl
  exact ⟨w', text, r', hwrite, houtput, hcalls, hend⟩

end Lines

end ScriptKit
