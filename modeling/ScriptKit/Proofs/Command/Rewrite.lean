import ScriptKit.Command.Perform
import ScriptKit.Proofs.Token.Comments
import ScriptKit.Proofs.Tree.Formed

/-!
# Rewriting a file

Canonical text has no comments, so a file that has some must not be rewritten. The formatter asks `hasComments`, which
agrees with the scanner on every source that can be formatted at all. A report of the formatter is therefore of one of
two kinds: it refuses, with an exit status that is not zero and nothing to write (`Report.Refuses`), or it replaces
one file, in which no comment was skipped, by the canonical text of its program (`format_reports`).

What a report writes is saved on a disk by following the path of the file once more. That leads to the file again, and
not elsewhere: a path is followed through directories only, and a file that is replaced stands in the way of none
(`Disk.follow_congr`).

**Theorem (`rewriting_keeps_comments`).** The comments that are looked for are those the scanner skips; and a file is
either left alone, with a status that is not zero, or has no comments and holds the canonical text of its program.
-/

namespace ScriptKit

/-! ## Files that are replaced -/

namespace Disk

variable {d d' : Disk} {path content : Text}

/-- The disk after the file at the end of a path is given a new content. -/
def rewrite (d : Disk) (path content : Text) : Disk :=
  match d.follow path with
  | .ok (some place) => d.put place (.file content)
  | _ => d

theorem at?_put_self {place : List Text} (hne : place ≠ []) (entry : Entry) :
    (d.put place entry).at? (some place) = some entry := by
  rw [at?, Disk.entry?, if_neg (by simpa using hne), put, List.lookup_cons_self]

theorem at?_put_of_ne {place place' : List Text} (hne : place' ≠ place) (entry : Entry) :
    (d.put place entry).at? (some place') = d.at? (some place') := by
  have hkept : (d.entries.filter fun e => e.1 != place).lookup place' = d.entries.lookup place' := by
    induction d.entries with
    | nil => rfl
    | cons e entries ih =>
      by_cases he : e.1 = place
      · have hmiss : (place' == e.1) = false := by simp [he, hne]
        rw [List.filter_cons_of_neg (by simp [he]), ih, List.lookup_cons, hmiss]
      · rw [List.filter_cons_of_pos (by simp [he]), List.lookup_cons, List.lookup_cons, ih]
  have hmiss : (place' == place) = false := by simp [hne]
  rw [at?, at?, Disk.entry?, Disk.entry?, put, List.lookup_cons, hmiss, hkept]

theorem at?_put_directory {place : List Text} {old new : Text} (hold : d.at? (some place) = some (.file old))
    (q : Place) (hq : d.at? q = some .directory) : (d.put place (.file new)).at? q = some .directory := by
  cases q with
  | none => rfl
  | some place' =>
    have hne : place' ≠ place := by
      rintro rfl
      rw [hold] at hq
      cases hq
    exact (at?_put_of_ne hne _).trans hq

/-- A step is made from a directory, and to a place that does not depend on what else there is. -/
theorem step_congr (hd : ∀ q, d.at? q = some .directory → d'.at? q = some .directory) {place place' : Place}
    {part : Text} (h : d.step place part = .ok place') : d'.step place part = .ok place' := by
  have hdirectory : d.at? place = some .directory := by
    unfold step at h
    split at h
    · cases h
    · cases h
    · next heq => exact heq
  unfold step at h ⊢
  rw [hdirectory] at h
  rw [hd place hdirectory]
  exact h

/-- A path that leads through directories still does if these remain. -/
theorem follow_congr (hd : ∀ q, d.at? q = some .directory → d'.at? q = some .directory) {place : Place}
    (h : d.follow path = .ok place) : d'.follow path = .ok place := by
  have hsteps : ∀ (parts : List Text) (q : Place), parts.foldlM d.step q = .ok place →
      parts.foldlM d'.step q = .ok place := by
    intro parts
    induction parts with
    | nil => exact fun _ h => h
    | cons part parts ih =>
      intro q h
      rw [List.foldlM_cons] at h ⊢
      cases hstep : d.step q part with
      | error fault =>
        rw [hstep] at h
        cases h
      | ok q' =>
        rw [hstep] at h
        rw [step_congr hd hstep]
        exact ih q' h
  -- the path itself is judged in the same way on both disks
  unfold follow at h ⊢
  split at h
  · cases h
  · next hnull =>
    split at h
    · cases h
    · next hempty =>
      split at h
      · cases h
      · next hlong =>
        rw [if_neg hnull, if_neg hempty, if_neg hlong]
        exact hsteps _ _ h

theorem read_eq_ok : d.read path = .ok content ↔ ∃ place, d.follow path = .ok (some place) ∧ place ≠ [] ∧
    d.at? (some place) = some (.file content) := by
  have hread : ∀ place, d.follow path = .ok place → (d.read path = .ok content ↔ d.at? place = some (.file content)) := by
    intro place hfollow
    cases hat : d.at? place with
    | none => simp [read, hfollow, hat, bind, Except.bind]
    | some entry => cases entry <;> simp [read, hfollow, hat, bind, Except.bind]
  constructor
  · intro h
    cases hfollow : d.follow path with
    | error fault =>
      unfold read at h
      rw [hfollow] at h
      cases h
    | ok place =>
      have hfile := (hread place hfollow).1 h
      cases place with
      | none => cases hfile
      | some place =>
        refine ⟨place, rfl, ?_, hfile⟩
        rintro rfl
        cases hfile
  · rintro ⟨place, hfollow, -, hfile⟩
    exact (hread _ hfollow).2 hfile

/-- A file that is replaced holds what it was given. -/
theorem read_rewrite {old : Text} (h : d.read path = .ok old) (new : Text) : (d.rewrite path new).read path = .ok new := by
  obtain ⟨place, hfollow, hne, hold⟩ := read_eq_ok.1 h
  have hput : d.rewrite path new = d.put place (.file new) := by rw [rewrite, hfollow]
  rw [hput]
  exact read_eq_ok.2 ⟨place, follow_congr (at?_put_directory hold) hfollow, hne, at?_put_self hne _⟩

end Disk

/-! ## Reports -/

/-- What a file holds that is given some content. -/
def Content.written : Content → Text
  | .text t => t
  | .trace events => events.flatMap fun e => (Json.object e.fields).write ++ "\n"

namespace Report

/-- The disk after the files of a report are written. -/
def save (r : Report) (d : Disk) : Disk := r.files.foldl (fun d f => d.rewrite f.1 f.2.written) d

/-- A report of a failure, with nothing to write. -/
structure Refuses (r : Report) : Prop where
  exit : r.exit ≠ 0
  files : r.files = []

theorem Refuses.save {r : Report} (h : r.Refuses) (d : Disk) : r.save d = d := by
  rw [Report.save, h.files]
  rfl

end Report

theorem Diagnostic.exitStatus_ne_zero (ds : List Diagnostic) : Diagnostic.exitStatus ds ≠ 0 := by
  have hcode : ∀ code : Code, code.exitStatus ≠ 0 := by
    intro code
    cases code <;> exact fun h => by cases h
  have hleast : ∀ n, n ≠ 0 → ds.foldl (fun n d => min n d.code.exitStatus) n ≠ 0 := by
    induction ds with
    | nil => exact fun n hn => hn
    | cons d ds ih =>
      intro n hn
      refine ih _ fun (hmin : min n d.code.exitStatus = 0) => ?_
      have hd := hcode d.code
      omega
  exact hleast 4 (by decide)

namespace Report

theorem refuses_usage (complaint : Text) : (usage complaint).Refuses := ⟨by simp [usage], rfl⟩

theorem refuses_diagnostics (style : Diagnostic.Style) (ds : List Diagnostic) : (diagnostics style ds).Refuses :=
  ⟨Diagnostic.exitStatus_ne_zero ds, rfl⟩

theorem refuses_failure (style : Diagnostic.Style) (code : Code) (message : Text) :
    (failure style code message).Refuses := refuses_diagnostics style _

end Report

/-- Without settings or a policy a command is refused. -/
theorem Setup.refuses_find {host : Host} {o : Options} {project : Text} {r : Report}
    (h : Setup.find host o project = .error r) : r.Refuses := by
  unfold Setup.find at h
  split at h
  · cases h
    exact Report.refuses_failure ..
  · dsimp only at h
    split at h
    · cases h
      exact Report.refuses_failure ..
    · split at h
      · cases h
        exact Report.refuses_failure ..
      · cases h

namespace Perform

theorem formatProgram_reports (host : Host) (path : Text) (s : Setup) (source : Source) :
    (formatProgram host path true s source).Refuses ∨ ∃ p, parse source.file source.text = .ok p ∧
      hasComments source.text = false ∧
      formatProgram host path true s source = { files := [(path, .text p.format)] } := by
  cases hparse : parse source.file source.text with
  | error e =>
    have hformat : format source.file source.text = .error e := by rw [format, hparse]; rfl
    rw [formatProgram, hformat]
    exact Or.inl (Report.refuses_diagnostics ..)
  | ok p =>
    have hformat : format source.file source.text = .ok p.format := by rw [format, hparse]; rfl
    rw [formatProgram, hformat]
    cases hcomments : hasComments source.text with
    | true => exact Or.inl (Report.refuses_usage _)
    | false =>
      cases hfault : host.writeFault? path with
      | some fault =>
        simp only [if_true]
        exact Or.inl (Report.refuses_failure ..)
      | none =>
        refine Or.inr ⟨p, rfl, rfl, ?_⟩
        simp

/-- A command is refused, or it does with its program what it is for, and logs something. -/
theorem withSource_reports (host : Host) (o : Options) (path : Text) (act : Setup → Source → Report) :
    (withSource host o path act).Refuses ∨ ∃ s source logs, Source.read host path = .ok source ∧
      withSource host o path act = { act s source with logs := logs } := by
  unfold withSource withSetup
  cases hfind : Setup.find host o (Invocation.project path) with
  | error r => exact Or.inl (Setup.refuses_find hfind)
  | ok s =>
    cases hread : Source.read host path with
    | error message =>
      have hrefuses : (s.ioFailure message).Refuses := Report.refuses_failure ..
      exact Or.inl ⟨hrefuses.exit, hrefuses.files⟩
    | ok source => exact Or.inr ⟨s, source, _, rfl, rfl⟩

/-- A report of replacing a file, which has no comments, by the canonical text of its program. -/
structure Replaces (host : Host) (path : Text) (r : Report) (content : Text) (p : Program) : Prop where
  read : host.read path = .ok content
  parsed : parse path content = .ok p
  uncommented : hasComments content = false
  exit : r.exit = 0
  files : r.files = [(path, .text p.format)]

/-- With the flag for rewriting, the formatter refuses or replaces a file that has no comments. -/
theorem onFile_reports (host : Host) (o : Options) {g : Flag.Given} (path : Text)
    (hwrite : g.isOn CommandLine.writeFlag = true) :
    (onFile host o g path .format).Refuses ∨
      ∃ content p, Replaces host path (onFile host o g path .format) content p := by
  unfold onFile
  by_cases hpath : path = Invocation.standardInput
  · rw [hwrite, if_pos (by simpa using hpath)]
    exact Or.inl (Report.refuses_usage _)
  · rw [hwrite, if_neg (by simpa using hpath)]
    rcases withSource_reports host o path (formatProgram host path true) with
      hrefuses | ⟨s, source, logs, hsource, hreport⟩
    · exact Or.inl hrefuses
    · rw [hreport]
      rcases formatProgram_reports host path s source with hrefuses | ⟨p, hparse, hcomments, hformat⟩
      · exact Or.inl ⟨hrefuses.exit, hrefuses.files⟩
      · rw [Source.read, if_neg hpath] at hsource
        split at hsource
        · next content hread =>
          cases hsource
          exact Or.inr ⟨content, p, hread, hparse, hcomments, by rw [hformat], by rw [hformat]⟩
        · cases hsource

/-- So it does with the one file it is given, and refuses to work on none or on several. -/
theorem format_reports (host : Host) (o : Options) {g : Flag.Given} (hwrite : g.isOn CommandLine.writeFlag = true) :
    (command host o g .format).Refuses ∨
      ∃ path content p, g.rest = [path] ∧ Replaces host path (command host o g .format) content p := by
  unfold command
  rcases hrest : g.rest with _ | ⟨path, _ | ⟨path', rest⟩⟩
  · exact Or.inl (Report.refuses_usage _)
  · refine (onFile_reports host o path hwrite).imp_right ?_
    rintro ⟨content, p, hreplaces⟩
    exact ⟨path, content, p, rfl, hreplaces⟩
  · exact Or.inl (Report.refuses_usage _)

end Perform

open Perform

/-- The comments that are looked for, in glyphs or in bytes, are those the scanner skips. If the formatter rewrites
files, it fails and leaves everything as it is, or its file had no comments and holds the canonical text of its
program. -/
theorem rewriting_keeps_comments :
    (∀ file source tokens, tokenize file source = .ok tokens →
      (hasComments source = true ↔ ∃ c, Cursor.Visits file (.start source) c ∧ c.SkipsComment)) ∧
    (∀ bytes, hasComments (Text.ofBytes bytes) = bytesHaveComments false bytes) ∧
    ∀ (d : Disk) (host : Host) (o : Options) (g : Flag.Given), host.read = d.read →
      g.isOn CommandLine.writeFlag = true →
      let r := (Invocation.act o .format g).perform host
      (r.exit ≠ 0 ∧ r.save d = d) ∨
        r.exit = 0 ∧ ∃ path content p, g.rest = [path] ∧ d.read path = .ok content ∧
          (¬∃ c, Cursor.Visits path (.start content) c ∧ c.SkipsComment) ∧ parse path content = .ok p ∧
          (r.save d).read path = .ok p.format := by
  refine ⟨fun file source tokens h => ?_, fun bytes => hasCommentsFrom_ofBytes false bytes,
    fun d host o g hread hwrite => ?_⟩
  · exact hasComments_iff h
  · rcases format_reports host o hwrite with hrefuses | ⟨path, content, p, hrest, hreplaces⟩
    · exact Or.inl ⟨hrefuses.exit, hrefuses.save d⟩
    · refine Or.inr ⟨hreplaces.exit, path, content, p, hrest, hread ▸ hreplaces.read, ?_, hreplaces.parsed, ?_⟩
      · obtain ⟨-, -, eof, -, -, -, hending⟩ := reads_all_of_parse hreplaces.parsed
        -- the source was parsed, so the scanner has come to its end, which is what the first part needs
        have hiff := hasComments_of_take (c := .start content) (Nat.lt_succ_self content.length) hending
        rw [← hiff, show (Cursor.start content).rest = content from rfl, hreplaces.uncommented]
        decide
      · have hsave : (command host o g .format).save d = d.rewrite path p.format := by
          rw [Report.save, hreplaces.files]
          rfl
        show ((command host o g .format).save d).read path = .ok p.format
        rw [hsave]
        exact Disk.read_rewrite (hread ▸ hreplaces.read) p.format

/-- A program with slashes in a string. -/
def slashesText : Text := "int a=(1+2) func Main()\x7b print(\"// no comment //\") \x7d"

/-- A disk with this program in a file. -/
def oneFile : Disk := ({} : Disk).add "a.slug" (.file slashesText)

/-- The flag for rewriting and the name of that file. -/
def rewriteOneFile : Flag.Given := { values := [("write", .switch true)], rest := ["a.slug"] }

/-- The file is rewritten, since what looks like a comment is a string. -/
theorem rewriting_keeps_comments_string : ∃ p, parse "a.slug" slashesText = .ok p ∧
    (((Invocation.act {} .format rewriteOneFile).perform { read := oneFile.read }).save oneFile).read "a.slug" =
      .ok p.format := by
  have hcontent : (oneFile.read "a.slug").toOption = some slashesText := by decide +kernel
  have hexit : ((Invocation.act {} .format rewriteOneFile).perform { read := oneFile.read }).exit = 0 := by
    decide +kernel
  rcases rewriting_keeps_comments.2.2 oneFile { read := oneFile.read } {} rewriteOneFile rfl (by decide +kernel) with
    ⟨hfailed, -⟩ | ⟨-, path, content, p, hrest, hread, -, hparse, hsaved⟩
  · exact absurd hexit hfailed
  · cases hrest
    rw [hread] at hcontent
    cases hcontent
    exact ⟨p, hparse, hsaved⟩

end ScriptKit
