import Mathlib
import PlcJava.Command.Run
import PlcJava.Proofs.Outcome

/-! What a run of the command leaves behind. It prints or writes the whole text that was asked for, or
nothing at all, and the text is the one that the compiler gives. -/

set_option autoImplicit false

namespace PlcJava.Command

private theorem exists_map_eq_ok {ε α β : Type} {f : α → β} {answer : Except ε α} :
    (∃ result, answer.map f = .ok result) ↔ ∃ value, answer = .ok value := by
  cases answer <;> simp [Except.map]

/-! The formats, each a way through the stages of its own. -/

namespace Format

private theorem render_java (source : String) : Format.java.render source = compile source := by
  unfold render compile Program.read
  cases lex source with
  | error error => rfl
  | ok tokens => cases parse tokens <;> rfl

private theorem render_outline (source : String) :
    Format.outline.render source =
      (Program.read source).map fun statements => (Outline.program isHidden statements).render ++ "\n" := by
  unfold render Program.read
  cases lex source with
  | error error => rfl
  | ok tokens => cases parse tokens <;> rfl

private theorem render_tokens (source : String) :
    Format.tokens.render source = ((lex source).mapError .lexical).map Token.table := by
  unfold render
  cases lex source <;> rfl

end Format

/-! Files. -/

private theorem fromUTF8?_eq_some {contents : ByteArray} {text : String} :
    String.fromUTF8? contents = some text ↔ contents = text.toUTF8 := by
  unfold String.fromUTF8?
  constructor
  · intro decoded
    split at decoded
    · cases decoded
      rfl
    · cases decoded
  · intro encoded
    subst encoded
    exact dif_pos text.isValidUTF8

namespace Directory

/-- The path leads to a file with this text and nothing else in it. -/
def Holds (directory : Directory) (path text : String) : Prop := directory.read path = .ok text.toUTF8

private theorem above_ne_name (steps : List String) (name : String) : above steps ≠ .name name := by
  induction steps with
  | nil => exact nofun
  | cons step others ih =>
    unfold above
    split
    · exact ih
    · exact nofun

private theorem follow_name {directory : Directory} {steps : List String} {name : String}
    (found : directory.follow steps = .name name) (other : Directory) : other.follow steps = .name name := by
  induction steps with
  | nil => cases found
  | cons step others ih =>
    unfold follow at found ⊢
    split at found
    next here =>
      rw [if_pos here]
      exact ih found
    next =>
      split at found
      · exact absurd found (above_ne_name others name)
      · split at found
        · simp_all
        · split at found
          · cases found
          · split at found <;> cases found

private theorem locate_name {directory : Directory} {path name : String} (found : directory.locate path = .name name)
    (other : Directory) : other.locate path = .name name := by
  unfold locate at found ⊢
  by_cases empty : path = ""
  · rw [if_pos empty] at found
    cases found
  · rw [if_neg empty] at found ⊢
    generalize path.toList = cs at found ⊢
    split at found
    · exact absurd found (above_ne_name _ name)
    · exact follow_name found other

private theorem write_eq_ok {directory changed : Directory} {path : String} {contents : ByteArray} :
    directory.write path contents = .ok changed ↔
      ∃ name, directory.locate path = .name name ∧ changed = directory.put name contents := by
  unfold write
  cases directory.locate path <;> simp [eq_comm]

private theorem write_holds {directory changed : Directory} {path text : String}
    (written : directory.write path text.toUTF8 = .ok changed) :
    changed.Holds path text ∧
      ∃ name, directory.locate path = .name name ∧ ∀ other, other ≠ name → changed.get? other = directory.get? other := by
  obtain ⟨name, found, rfl⟩ := write_eq_ok.mp written
  refine ⟨?_, name, found, fun other different => get?_put_of_ne directory text.toUTF8 different⟩
  unfold Holds read
  rw [locate_name found]
  simp only [get?_put_self]

end Directory

/-- The text is where the request wants it, and nothing else has changed. -/
def Request.Delivered (request : Request) (text : String) (directory : Directory) (outcome : Outcome)
    (after : Directory) : Prop :=
  match request.output with
  | none => outcome.stdout = text ∧ after = directory
  | some path =>
    outcome.stdout = "" ∧ after.Holds path text ∧
      ∃ name, directory.locate path = .name name ∧ ∀ other, other ≠ name → after.get? other = directory.get? other

/-- What a request comes to in a directory. -/
inductive Request.Course (request : Request) (directory : Directory) : Outcome × Directory → Prop where
  | unreadable (error : FileError) (missing : ∀ source, ¬ directory.Holds request.path source) :
      Course request directory (.unreadable request.path error, directory)
  | refused {source : String} {error : CompileError} (found : directory.Holds request.path source)
      (failed : request.format.render source = .error error) :
      Course request directory (.failure error.message, directory)
  | printed {source text : String} (found : directory.Holds request.path source)
      (rendered : request.format.render source = .ok text) (direct : request.output = none) :
      Course request directory (.success text, directory)
  | saved {source text path : String} {changed : Directory} (found : directory.Holds request.path source)
      (rendered : request.format.render source = .ok text) (redirected : request.output = some path)
      (written : directory.write path text.toUTF8 = .ok changed) :
      Course request directory (.success "", changed)
  | unwritable {source text path : String} {error : FileError} (found : directory.Holds request.path source)
      (rendered : request.format.render source = .ok text) (redirected : request.output = some path)
      (failed : directory.write path text.toUTF8 = .error error) :
      Course request directory (.unwritable path error, directory)

private theorem Request.deliver_course {request : Request} {directory : Directory} {source text : String}
    (found : directory.Holds request.path source) (rendered : request.format.render source = .ok text) :
    request.Course directory ((request.deliver text).runIn directory) := by
  unfold deliver
  cases destination : request.output with
  | none => exact .printed found rendered destination
  | some path =>
    simp only [Action.runIn]
    cases written : directory.write path text.toUTF8 with
    | ok changed => exact .saved found rendered destination written
    | error error => exact .unwritable found rendered destination written

private theorem Request.course (request : Request) (directory : Directory) :
    request.Course directory (request.action.runIn directory) := by
  simp only [action, Action.runIn]
  cases read : directory.read request.path with
  | error error =>
    refine .unreadable error fun source holds => ?_
    rw [Directory.Holds, read] at holds
    cases holds
  | ok contents =>
    cases decoded : String.fromUTF8? contents with
    | none =>
      simp only [decoded]
      refine .unreadable .invalidText fun source holds => ?_
      rw [Directory.Holds, read] at holds
      rw [fromUTF8?_eq_some.mpr (Except.ok.inj holds)] at decoded
      cases decoded
    | some source =>
      have found : directory.Holds request.path source := by
        rw [Directory.Holds, read, fromUTF8?_eq_some.mp decoded]
      cases rendered : request.format.render source with
      | error error =>
        simp only [decoded, rendered]
        exact .refused found rendered
      | ok text =>
        simp only [decoded, rendered]
        exact deliver_course found rendered

private theorem Directory.Holds.unique {directory : Directory} {path first second : String}
    (one : directory.Holds path first) (other : directory.Holds path second) : first = second := by
  have same : first.toUTF8 = second.toUTF8 := Except.ok.inj (one.symm.trans other)
  exact String.toByteArray_inj.mp same

namespace Request.Course

variable {request : Request} {directory after : Directory} {outcome : Outcome}

private theorem nothing (course : request.Course directory (outcome, after)) (failed : outcome.status ≠ 0) :
    outcome.stdout = "" ∧ after = directory := by
  cases course with
  | unreadable | refused | unwritable => exact ⟨rfl, rfl⟩
  | printed | saved => exact absurd rfl failed

private theorem all (course : request.Course directory (outcome, after)) (succeeded : outcome.status = 0) :
    ∃ source text, directory.Holds request.path source ∧ request.format.render source = .ok text ∧
      request.Delivered text directory outcome after := by
  cases course with
  | unreadable | refused | unwritable => cases succeeded
  | printed found rendered direct =>
    refine ⟨_, _, found, rendered, ?_⟩
    rw [Delivered, direct]
    exact ⟨rfl, rfl⟩
  | saved found rendered redirected written =>
    refine ⟨_, _, found, rendered, ?_⟩
    rw [Delivered, redirected]
    exact ⟨rfl, Directory.write_holds written⟩

private theorem of_error (course : request.Course directory (outcome, after)) {source : String} {error : CompileError}
    (found : directory.Holds request.path source) (failed : request.format.render source = .error error) :
    outcome = ⟨1, "", error.message ++ "\n"⟩ := by
  cases course with
  | unreadable _ missing => exact absurd found (missing source)
  | refused same failed' =>
    cases same.unique found
    cases failed'.symm.trans failed
    rfl
  | printed same rendered | saved same rendered | unwritable same rendered =>
    cases same.unique found
    cases rendered.symm.trans failed

private theorem of_text (course : request.Course directory (outcome, after)) {source text : String}
    (found : directory.Holds request.path source) (rendered : request.format.render source = .ok text) :
    outcome.status = 0 ↔ ∀ path ∈ request.output, ∃ changed, directory.write path text.toUTF8 = .ok changed := by
  cases course with
  | unreadable _ missing => exact absurd found (missing source)
  | refused same failed =>
    cases same.unique found
    cases failed.symm.trans rendered
  | printed _ _ direct => simp [direct, Outcome.success]
  | saved same again redirected written =>
    cases same.unique found
    cases again.symm.trans rendered
    refine ⟨fun _ path member => ?_, fun _ => rfl⟩
    cases redirected.symm.trans member
    exact ⟨_, written⟩
  | unwritable same again redirected failed =>
    cases same.unique found
    cases again.symm.trans rendered
    refine ⟨nofun, fun writes => ?_⟩
    obtain ⟨_, written⟩ := writes _ redirected
    cases failed.symm.trans written

end Request.Course

/-- A run gives all or nothing. If it fails it prints nothing and changes no file. If it succeeds with a
request, the source is a text that renders, and the text is printed with no file changed, or it fills the
file that was asked for and no other. -/
theorem run_all_or_nothing {arguments : List String} {directory after : Directory} {outcome : Outcome}
    (ran : run arguments directory = (outcome, after)) :
    (outcome.status ≠ 0 → outcome.stdout = "" ∧ after = directory) ∧
    (outcome.status = 0 → Invocation.ofArguments arguments ≠ .help → Invocation.ofArguments arguments ≠ .version →
      ∃ request source text, Invocation.ofArguments arguments = .compile request ∧
        directory.Holds request.path source ∧ request.format.render source = .ok text ∧
        request.Delivered text directory outcome after) ∧
    (∀ request source, Invocation.ofArguments arguments = .compile request → directory.Holds request.path source →
      (∀ error, request.format.render source = .error error → outcome = ⟨1, "", error.message ++ "\n"⟩) ∧
      ∀ text, request.format.render source = .ok text →
        (outcome.status = 0 ↔
          ∀ path ∈ request.output, ∃ changed, directory.write path text.toUTF8 = .ok changed)) ∧
    (∀ source, Format.java.render source = compile source) ∧
    (∀ source, (∃ text, Format.outline.render source = .ok text) ↔ ∃ java, compile source = .ok java) ∧
    ∀ source, (∃ text, Format.tokens.render source = .ok text) ↔ ∃ tokens, lex source = .ok tokens := by
  have course (request : Request) (invoked : Invocation.ofArguments arguments = .compile request) :
      request.Course directory (outcome, after) := by
    rw [← ran, run, invoked]
    exact request.course directory
  refine ⟨?_, ?_, ?_, Format.render_java, ?_, ?_⟩
  · intro failed
    cases invoked : Invocation.ofArguments arguments with
    | compile request => exact (course request invoked).nothing failed
    | misuse =>
      rw [run, invoked] at ran
      cases ran
      exact ⟨rfl, rfl⟩
    | help | version =>
      rw [run, invoked] at ran
      cases ran
      exact absurd rfl failed
  · intro succeeded notHelp notVersion
    cases invoked : Invocation.ofArguments arguments with
    | compile request =>
      obtain ⟨source, text, parts⟩ := (course request invoked).all succeeded
      exact ⟨request, source, text, rfl, parts⟩
    | misuse =>
      rw [run, invoked] at ran
      cases ran
      cases succeeded
    | help => exact absurd invoked notHelp
    | version => exact absurd invoked notVersion
  · intro request source invoked found
    exact ⟨fun error failed => (course request invoked).of_error found failed,
      fun text rendered => (course request invoked).of_text found rendered⟩
  · intro source
    rw [Format.render_outline, compile, exists_map_eq_ok, exists_map_eq_ok]
  · intro source
    rw [Format.render_tokens, exists_map_eq_ok]
    exact exists_congr fun tokens => PlcJava.Outcome.mapError_eq_ok

theorem run_all_or_nothing_in_place :
    (∃ after, run ["a", "-o", "a", "--format=tokens"] ⟨[("a", "x".toUTF8), ("b", "y".toUTF8)]⟩ = (.success "", after) ∧
      after.Holds "a" "0\tidentifier\tx\n" ∧ after.get? "b" = some "y".toUTF8) ∧
    (run ["a"] ⟨[("a", "x".toUTF8)]⟩).1 =
      ⟨1, "", "Parse error at token 1: expected ';' at the end of a statement" ++ "\n"⟩ := by
  have invoked : Invocation.ofArguments ["a", "-o", "a", "--format=tokens"] = .compile ⟨"a", some "a", .tokens⟩ := by
    cbv
  have ran : run ["a", "-o", "a", "--format=tokens"] ⟨[("a", "x".toUTF8), ("b", "y".toUTF8)]⟩ =
      (.success "", ⟨[("b", "y".toUTF8), ("a", "0\tidentifier\tx\n".toUTF8)]⟩) := by cbv
  have plain : Invocation.ofArguments ["a"] = .compile ⟨"a", none, .java⟩ := by cbv
  have read : (⟨[("a", "x".toUTF8)]⟩ : Directory).read "a" = .ok "x".toUTF8 := by cbv
  have failed : Format.java.render "x" = .error (.grammatical ⟨.missingSemicolon, 1⟩) := by cbv
  obtain ⟨request, source, text, same, found, rendered, delivered⟩ :=
    (run_all_or_nothing ran).2.1 rfl (by simp [invoked]) (by simp [invoked])
  cases invoked.symm.trans same
  have one : source = "x" := found.unique (show Directory.read _ _ = _ by cbv)
  subst one
  have shown : Format.tokens.render "x" = .ok "0\tidentifier\tx\n" := by cbv
  cases shown.symm.trans rendered
  obtain ⟨_, holds, name, place, others⟩ := delivered
  have located : (⟨[("a", "x".toUTF8), ("b", "y".toUTF8)]⟩ : Directory).locate "a" = .name "a" := by cbv
  cases located.symm.trans place
  refine ⟨⟨_, ran, holds, (others "b" (by decide)).trans (by cbv)⟩, ?_⟩
  exact ((run_all_or_nothing rfl).2.2.1 _ _ plain read).1 _ failed

end PlcJava.Command
