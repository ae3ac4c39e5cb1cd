import Treewalk.Proofs.Eval.SinkOffset
import Treewalk.Proofs.Text.LowerCase
import Treewalk.Runner

/-! What a run of a program file shows: nothing if there is no program to run, and otherwise its
tree, if that was asked for, and what evaluating the tree prints. The other options do not show. -/
namespace Treewalk

def Text.EndsIn (t : Text) (word : List Char) : Prop :=
  ∃ stem ending, t = stem ++ ending ∧ ending.Spells word

namespace Format

open Text

theorem takeWhile_ne_append {c : UInt8} {t : Text} (absent : c ∉ t) (rest : Text) :
    (t ++ rest).takeWhile (· ≠ c) = t ++ rest.takeWhile (· ≠ c) := by
  refine List.takeWhile_append_of_pos fun b listed => decide_eq_true ?_
  rintro rfl
  exact absent listed

theorem extension_suffix (path : Text) : ∃ stem, path = stem ++ extension path := by
  dsimp only [extension]
  split
  · next dotted =>
    obtain ⟨folder, whole⟩ := List.takeWhile_prefix (l := path.reverse) (· ≠ ascii '/')
    obtain ⟨first, rest, name, dotless⟩ := List.eq_append_cons_of_mem dotted
    rw [name] at whole ⊢
    rw [takeWhile_ne_append dotless]
    refine ⟨(rest ++ folder).reverse, ?_⟩
    rw [← List.reverse_inj, ← whole]
    simp
  · exact ⟨path, by simp⟩

theorem extension_append {ending : Text} (stem : Text) (dotless : ascii '.' ∉ ending)
    (slashless : ascii '/' ∉ ending) :
    extension (stem ++ ascii '.' :: ending) = ascii '.' :: ending := by
  have name : (stem ++ ascii '.' :: ending).reverse.takeWhile (· ≠ ascii '/') =
      ending.reverse ++ ascii '.' :: stem.reverse.takeWhile (· ≠ ascii '/') := by
    have other : ascii '.' ≠ ascii '/' := by decide
    rw [List.reverse_append, List.reverse_cons, List.append_assoc,
      takeWhile_ne_append (by simpa using slashless)]
    simp [other]
  simp only [extension, name]
  rw [if_pos (by simp), takeWhile_ne_append (by simpa using dotless)]
  simp

theorem lowered_extension_iff {word : List Char} (letters : ∀ c ∈ word, c ∈ ['a', 'l', 'm', 'y'])
    (path : Text) :
    lowered (extension path) = ('.' :: word).map ascii ↔ path.EndsIn ('.' :: word) := by
  have known : ∀ c ∈ '.' :: word, c ∈ extensionLetters := by
    intro c listed
    rcases List.mem_cons.mp listed with rfl | inWord
    · decide
    · exact List.mem_cons_of_mem _ (letters c inWord)
  rw [lowered_eq_iff known]
  constructor
  · intro spelled
    obtain ⟨stem, whole⟩ := extension_suffix path
    exact ⟨stem, extension path, whole, spelled⟩
  · rintro ⟨stem, ending, rfl, spelled⟩
    obtain ⟨b, rest, point, tail, rfl⟩ := List.forall₂_cons_right_iff.mp spelled
    obtain rfl : b = ascii '.' := point.elim id id
    have plain : ∀ a ∈ rest, a ≠ ascii '.' ∧ a ≠ ascii '/' := by
      intro a listed
      obtain ⟨c, inWord, cased⟩ := Spells.exists_letter tail listed
      have letter := letters c inWord
      simp only [List.mem_cons, List.not_mem_nil, or_false] at letter
      rcases letter with rfl | rfl | rfl | rfl <;> rcases cased with rfl | rfl <;> decide
    rwa [extension_append stem (fun listed => (plain _ listed).1 rfl)
      (fun listed => (plain _ listed).2 rfl)]

theorem ofPath_eq_yaml_iff (path : Text) :
    ofPath path = .yaml ↔
      path.EndsIn ['.', 'y', 'a', 'm', 'l'] ∨ path.EndsIn ['.', 'y', 'm', 'l'] := by
  rw [← lowered_extension_iff (by simp), ← lowered_extension_iff (by simp)]
  have long : Text.ofString ".yaml" = ['.', 'y', 'a', 'm', 'l'].map ascii := by decide
  have short : Text.ofString ".yml" = ['.', 'y', 'm', 'l'].map ascii := by decide
  rw [ofPath, long, short]
  split <;> simp_all

end Format

/-- What a run shows outside of its journal. -/
def Report.visible (r : Report) : Text × Option RunError := (r.output, r.error)

def Outcome.visible {α : Type} (before : Text) : Outcome α → Option (Text × Option RunError)
  | .value _ st => some (before ++ st.sink.text, none)
  | .fault f st => some (before ++ st.sink.text, some (.fault f))
  | .exhausted => none

theorem evaluate_behind {earlier : Array Text} (n : Nat) (t : Tree) (s : ScopeId) (store : Store)
    (sink : Sink) :
    evaluate n t s store (sink.behind earlier) = (evaluate n t s store sink).behind earlier :=
  eval_behind n s t ⟨store, sink, #[]⟩

namespace Options

def heading (o : Options) (t : Tree) : Array Text := if o.printTree then #[t.text] else #[]

def room (o : Options) (limit : Option Nat) : Option Nat :=
  if o.printTree then limit.map (· - 1) else limit

theorem showTree?_eq (o : Options) (t : Tree) (limit : Option Nat) :
    o.showTree? t ⟨limit, #[]⟩ =
      if o.printTree ∧ limit = some 0 then none
      else some (Sink.behind (o.heading t) ⟨o.room limit, #[]⟩) := by
  unfold showTree? heading room
  cases o.printTree with
  | false => simp [Sink.behind]
  | true =>
    cases limit with
    | none => simp [Sink.write?, Sink.accepts, Sink.behind]
    | some m =>
      cases m with
      | zero => simp [Sink.write?, Sink.accepts]
      | succ m => simp [Sink.write?, Sink.accepts, Sink.behind, Nat.add_comm]

theorem run_refused {n : Nat} {o : Options} {content : Except FileError Text} {e : RunError}
    {levels : List Level} (kept : Level.enabled o.development o.level = .ok levels)
    (undecoded : o.tree content = .error e) (sink : Sink) :
    o.run n content sink = some (.refused e) := by
  simp only [run, kept, undecoded]

theorem run_visible {n : Nat} {o : Options} {content : Except FileError Text} {t : Tree}
    {levels : List Level} (kept : Level.enabled o.development o.level = .ok levels)
    (decoded : o.tree content = .ok t) (limit : Option Nat) :
    (o.run n content ⟨limit, #[]⟩).map Report.visible =
      if o.printTree ∧ limit = some 0 then some ([], some .refusedTree)
      else (evaluate n t (Store.empty.newScope none).1 (Store.empty.newScope none).2
        ⟨o.room limit, #[]⟩).visible ((o.heading t).toList.map Text.line).flatten := by
  by_cases refused : o.printTree ∧ limit = some 0
  · simp only [run, kept, decoded, showTree?_eq, if_pos refused]
    rfl
  · simp only [run, kept, decoded, showTree?_eq, if_neg refused, execute, evaluate_behind]
    cases evaluate n t (Store.empty.newScope none).1 (Store.empty.newScope none).2
        ⟨o.room limit, #[]⟩ <;>
      simp [Outcome.behind, Outcome.visible, Report.visible, State.behind, Sink.text_behind]

theorem run_visible_congr {n : Nat} {o o' : Options} {levels levels' : List Level}
    (program : o'.program = o.program) (printTree : o'.printTree = o.printTree)
    (kept : Level.enabled o.development o.level = .ok levels)
    (kept' : Level.enabled o'.development o'.level = .ok levels')
    (content : Except FileError Text) (limit : Option Nat) :
    (o'.run n content ⟨limit, #[]⟩).map Report.visible =
      (o.run n content ⟨limit, #[]⟩).map Report.visible := by
  have tree : o'.tree content = o.tree content := by simp only [Options.tree, program]
  cases decoded : o.tree content with
  | error e => rw [run_refused kept' (tree.trans decoded), run_refused kept decoded]
  | ok t =>
    rw [run_visible kept' (tree.trans decoded), run_visible kept decoded]
    simp only [heading, room, printTree]

end Options

theorem runCommand_eq {environment : Table Text Text} {arguments : List Text} {o : Options}
    (given : Options.read environment arguments = .ok o) (n : Nat) (files : Files)
    (limit : Option Nat) :
    runCommand n files environment arguments limit =
      o.run n (files.read o.program) ⟨limit, #[]⟩ := by
  simp only [runCommand, given]

/-- A run of a program file shows what evaluating the program shows. Nothing is shown if the levels
to keep are not known, or if there is no program in the file, which is read as YAML by its
extension. Otherwise the line of the tree comes first, if asked for, and then exactly what the
program prints in a new global scope, to a sink with the remaining room; after a refused line of
the tree nothing is evaluated. No other option shows, however it is given. -/
theorem runs_show_evaluation (n : Nat) (files : Files) (environment : Table Text Text)
    (arguments : List Text) (limit : Option Nat) {o : Options}
    (given : Options.read environment arguments = .ok o) :
    let run := runCommand n files environment arguments limit
    (Format.ofPath o.program = .yaml ↔
      o.program.EndsIn ['.', 'y', 'a', 'm', 'l'] ∨ o.program.EndsIn ['.', 'y', 'm', 'l']) ∧
    (∀ e, Level.enabled o.development o.level = .error e → run = some ⟨[], some (.level e), []⟩) ∧
    ∀ levels, Level.enabled o.development o.level = .ok levels →
      (∀ e, files.read o.program = .error e →
        run = some ⟨[], some (.unreadable o.program e), []⟩) ∧
      (∀ text e, files.read o.program = .ok text →
        Tree.ofDocument (.ofPath o.program) text = .error e →
        run = some ⟨[], some (.document e), []⟩) ∧
      (∀ text t, files.read o.program = .ok text →
        Tree.ofDocument (.ofPath o.program) text = .ok t →
        run.map Report.visible =
          let (root, store) := Store.empty.newScope none
          if o.printTree then
            if limit = some 0 then some ([], some .refusedTree)
            else (evaluate n t root store ⟨limit.map (· - 1), #[]⟩).visible (Text.line t.text)
          else (evaluate n t root store ⟨limit, #[]⟩).visible []) ∧
      ∀ environment' arguments' o', Options.read environment' arguments' = .ok o' →
        o'.program = o.program → o'.printTree = o.printTree →
        (∃ levels', Level.enabled o'.development o'.level = .ok levels') →
        (runCommand n files environment' arguments' limit).map Report.visible =
          run.map Report.visible := by
  intro run
  have ran : run = o.run n (files.read o.program) ⟨limit, #[]⟩ := runCommand_eq given n files limit
  refine ⟨Format.ofPath_eq_yaml_iff o.program, ?_, fun levels kept => ⟨?_, ?_, ?_, ?_⟩⟩
  · intro e unknown
    rw [ran, Options.run, unknown]
    rfl
  · intro e unreadable
    rw [ran, unreadable]
    exact Options.run_refused kept rfl _
  · intro text e read undecoded
    rw [ran, read]
    refine Options.run_refused kept ?_ _
    rw [Options.tree, undecoded]
    rfl
  · intro text t read decoded
    have tree : o.tree (.ok text) = .ok t := by
      rw [Options.tree, decoded]
      rfl
    rw [ran, read, Options.run_visible kept tree]
    simp only [Options.heading, Options.room]
    cases o.printTree <;> simp
  · rintro environment' arguments' o' given' program printTree ⟨levels', kept'⟩
    rw [ran, runCommand_eq given', program]
    exact Options.run_visible_congr program printTree kept kept' _ limit

def Files.sample : Files :=
  .ofList [("a/p.Json",
    "\x7b\"kind\":\"print\",\"expr\":\x7b\"kind\":\"int\",\"value\":7\x7d\x7d")]

theorem sample_runs_alike :
    let arguments : List Text := ["--program", "a/p.Json", "--print-ast"]
    let environment' : Table Text Text := [("FWJS_PROGRAM", "a/p.Json"), ("FWJS_DEV", "true")]
    let arguments' : List Text := ["--trace", "--log-level=loud", "--print-ast"]
    (runCommand 3 .sample [] arguments (some 1)).map Report.visible =
        some (Text.ofString "print(7)\n", some (.fault (.refusedPrint "7"))) ∧
      (runCommand 3 .sample environment' arguments' (some 1)).map Report.visible =
        (runCommand 3 .sample [] arguments (some 1)).map Report.visible := by
  intro arguments environment' arguments'
  have given : Options.read [] arguments = .ok ⟨"a/p.Json", true, false, false, "info"⟩ := rfl
  have given' : Options.read environment' arguments' =
    .ok ⟨"a/p.Json", true, true, true, "loud"⟩ := rfl
  have kept : Level.enabled false "info" = .ok Level.info.upward := by
    with_unfolding_all rfl
  have format : Format.ofPath "a/p.Json" = .json := by with_unfolding_all rfl
  have decoded : Tree.ofDocument (.ofPath "a/p.Json")
      "\x7b\"kind\":\"print\",\"expr\":\x7b\"kind\":\"int\",\"value\":7\x7d\x7d" =
        .ok (.print (.int 7)) := by
    rw [format]
    with_unfolding_all rfl
  obtain ⟨-, -, valid⟩ := runs_show_evaluation 3 .sample [] arguments (some 1) given
  obtain ⟨-, -, shown, alike⟩ := valid _ kept
  refine ⟨?_, alike _ _ _ given' rfl rfl ⟨_, rfl⟩⟩
  rw [shown _ _ rfl decoded]
  rfl

end Treewalk
