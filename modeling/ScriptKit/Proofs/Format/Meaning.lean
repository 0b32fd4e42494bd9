import ScriptKit.Proofs.Format.RoundTrip
import ScriptKit.Proofs.Grammar.Known
import ScriptKit.Proofs.Run.Layout
import ScriptKit.Session

/-!
# The canonical text means the same

The canonical text of a program is read as a program of the same core. The core decides which builtins are
called, so both sources are accepted or refused against given builtins, and it decides what a run shows.

**Theorem (`format_preserves_meaning`).** In every session and every world, a source and its canonical text
are refused for the same fault, or both run and show the same.
-/

namespace ScriptKit

open Run

/-- Wherever one run ends before its budget does, another one ends in the same way with every budget that
is large enough. -/
def Run.Carries (run run' : Nat → Outcome) : Prop :=
  ∀ budget, ¬(run budget).Canceled → ∃ least, ∀ budget', least ≤ budget' →
    (run' budget').Agrees (run budget)

theorem Program.externals_of_core {p q : Program} (h : q.core = p.core) : q.externals = p.externals := by
  rw [← q.externals_core, h, p.externals_core]

theorem Session.run_of_parse {session : Session} {file source : Text} {p : Program}
    (h : session.parse file source = .ok p) (world : World) (budget : Nat) :
    session.run file source world budget = .ok (p.run session.registry world budget) := by
  rw [Session.run, h]
  rfl

theorem Session.run_of_refused {session : Session} {file source : Text} {e : Parse.Error}
    (h : session.parse file source = .error e) (world : World) (budget : Nat) :
    session.run file source world budget = .error e := by
  rw [Session.run, h]
  rfl

/-- In every session, a source and its canonical text are refused for the same fault, or both run and show
the same: if one of them ends, the other one ends with the same failure or none, the same globals and the
same world. The code and the message of a failure are those of its fault. -/
theorem format_preserves_meaning {file : Text} {bytes : List UInt8} {p : Program}
    (h : parse file (Text.ofBytes bytes) = .ok p) (session : Session) (file' : Text) (world : World) :
    (∃ e e', e.fault = e'.fault ∧
      (∀ budget, session.run file (Text.ofBytes bytes) world budget = .error e) ∧
      ∀ budget, session.run file' (Text.ofBytes p.format.toBytes) world budget = .error e') ∨
    ∃ run run', Carries run run' ∧ Carries run' run ∧
      (∀ budget, session.run file (Text.ofBytes bytes) world budget = .ok (run budget)) ∧
      ∀ budget, session.run file' (Text.ofBytes p.format.toBytes) world budget = .ok (run' budget) := by
  obtain ⟨q, hq, hcore, -⟩ := parse_format h file'
  have hsettled : p.format.Settled := settled_format (fun _ hv => hv.2) (formed_of_bytes h)
  rw [← hsettled] at hq
  have hp := parse_known h session.registry.names
  have hq := parse_known hq session.registry.names
  rw [Program.externals_of_core hcore] at hq
  unfold Parser.Sifted at hp hq
  cases hfind : Parser.unknown? session.registry.names p.externals with
  | none =>
    rw [hfind] at hp hq
    refine .inr ⟨p.run session.registry world, q.run session.registry world, ?_, ?_, ?_, ?_⟩
    · exact fun budget hgo => run_core hcore.symm hgo
    · exact fun budget hgo => run_core hcore hgo
    · exact Session.run_of_parse hp world
    · exact Session.run_of_parse hq world
  | some name =>
    rw [hfind] at hp hq
    obtain ⟨e, he, hfault⟩ := hp
    obtain ⟨e', he', hfault'⟩ := hq
    refine .inl ⟨e, e', hfault.trans hfault'.symm, ?_, ?_⟩
    · exact Session.run_of_refused he world
    · exact Session.run_of_refused he' world

/-- A program that passes over tokens and loops, and its canonical text. -/
theorem format_preserves_meaning_loop : ∃ bytes p,
    bytes = Text.toBytes "int s func Main()\x7b int i=2 ; while(i>0)\x7b ; s=s+i i=i-1 \x7d \x7d" ∧
    parse "a" (Text.ofBytes bytes) = .ok p ∧
    ∃ run run', Carries run run' ∧ Carries run' run ∧
      (∀ budget, Session.run {} "a" (Text.ofBytes bytes) {} budget = .ok (run budget)) ∧
      ∀ budget, Session.run {} "b" (Text.ofBytes p.format.toBytes) {} budget = .ok (run' budget) := by
  obtain ⟨bytes, hbytes⟩ : ∃ bytes, bytes =
      Text.toBytes "int s func Main()\x7b int i=2 ; while(i>0)\x7b ; s=s+i i=i-1 \x7d \x7d" := ⟨_, rfl⟩
  have hok : (parse "a" (Text.ofBytes bytes)).toOption.isSome = true := by
    rw [hbytes]
    decide +kernel
  have hknown : (Session.parse {} "a" (Text.ofBytes bytes)).toOption.isSome = true := by
    rw [hbytes]
    decide +kernel
  cases hparse : parse "a" (Text.ofBytes bytes) with
  | error e =>
    rw [hparse] at hok
    cases hok
  | ok p =>
    refine ⟨bytes, p, hbytes, hparse, ?_⟩
    obtain ⟨e, e', -, hrefused, -⟩ | hruns := format_preserves_meaning hparse {} "b" {}
    · cases hq : Session.parse {} "a" (Text.ofBytes bytes) with
      | error e =>
        rw [hq] at hknown
        cases hknown
      | ok q =>
        have hrun := hrefused 0
        rw [Session.run_of_parse hq] at hrun
        cases hrun
    · exact hruns

end ScriptKit
