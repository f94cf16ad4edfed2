import Mathlib.Data.List.Basic
import Mathlib.Tactic.TypeStar

/-! Shell scripts under `set -e`. A command that fails ends the script, unless it is the
test of an `if`; a function that returns a failure is such a command for its caller. The
status of the last command is passed along, so that a test of it can be told from the
others: it never finds a failure. -/

namespace LempStack.ErrExit

/-- Statements over simple commands `κ`, tests `τ` and the word lists `ν` of loops. -/
inductive Script (κ τ ν : Type*) where
  | skip
  | cmd (c : κ)
  | seq (first next : Script κ τ ν)
  | branch (t : τ) (yes no : Script κ τ ν)
  | each (words : ν)
  | ret (ok : Bool)
  | exit
  | call (body : Script κ τ ν)

/-- How a statement ends: with a status, by a return from its function, or with the script. -/
inductive Result (σ : Type*) where
  | next (s : σ) (ok : Bool)
  | returned (s : σ) (ok : Bool)
  | exited (s : σ)

def Result.state {σ : Type*} : Result σ → σ
  | next s _ => s
  | returned s _ => s
  | exited s => s

def Result.success {σ : Type*} : Result σ → Bool
  | next _ ok => ok
  | returned _ _ => false
  | exited _ => false

theorem Result.success_iff {σ : Type*} {r : Result σ} :
    r.success = true ↔ r = .next r.state true := by
  cases r <;> simp [Result.success, Result.state]

def Result.andThen {σ : Type*} (r : Result σ) (f : σ → Bool → Result σ) : Result σ :=
  match r with
  | next s ok => f s ok
  | returned s ok => returned s ok
  | exited s => exited s

def Result.leave {σ : Type*} : Result σ → Result σ
  | next s true => next s true
  | returned s true => next s true
  | next s false => exited s
  | returned s false => exited s
  | exited s => exited s

/-- What commands do, and whether they succeed; what tests find, given the last status; and
the commands that the loops come to. -/
structure Shell (κ τ ν σ : Type*) where
  exec : κ → σ → σ × Bool
  test : τ → Bool → σ → Bool
  body : ν → σ → List κ

namespace Script
variable {κ τ ν σ : Type*}

def block (cs : List κ) : Script κ τ ν := cs.foldr (fun c rest => .seq (.cmd c) rest) .skip

def steps (ps : List (Script κ τ ν)) : Script κ τ ν := ps.foldr .seq .skip

def cmds : Script κ τ ν → List κ
  | cmd c => [c]
  | seq a b => a.cmds ++ b.cmds
  | branch _ a b => a.cmds ++ b.cmds
  | call body => body.cmds
  | _ => []

def loops : Script κ τ ν → List ν
  | seq a b => a.loops ++ b.loops
  | branch _ a b => a.loops ++ b.loops
  | each words => [words]
  | call body => body.loops
  | _ => []

def returns : Script κ τ ν → Bool
  | seq a b => a.returns || b.returns
  | branch _ a b => a.returns || b.returns
  | ret _ => true
  | _ => false

def plain : Script κ τ ν → Bool
  | seq a b => a.plain && b.plain
  | branch _ a b => a.plain && b.plain
  | call body => body.plain
  | ret _ | exit => false
  | _ => true

/-- Every way through the script comes to a command of the first kind, and from there on has
commands of the second kind only. -/
def settles (makes keeps : κ → Bool) (quiet : ν → Bool) : Script κ τ ν → Bool
  | cmd c => makes c
  | seq a b => !a.returns && (b.settles makes keeps quiet ||
      a.settles makes keeps quiet && b.cmds.all keeps && b.loops.all quiet)
  | branch _ a b => a.settles makes keeps quiet && b.settles makes keeps quiet
  | call body => body.settles makes keeps quiet
  | _ => false

end Script

section Semantics
variable {κ τ ν σ : Type*} (sh : Shell κ τ ν σ)

def runEach : List κ → σ → Result σ
  | [], s => .next s true
  | c :: cs, s => if (sh.exec c s).2 then runEach cs (sh.exec c s).1 else .exited (sh.exec c s).1

def eval : Script κ τ ν → Bool → σ → Result σ
  | .skip, _, s => .next s true
  | .cmd c, _, s => if (sh.exec c s).2 then .next (sh.exec c s).1 true else .exited (sh.exec c s).1
  | .seq a b, ok, s => (eval a ok s).andThen fun s' ok' => eval b ok' s'
  | .branch t a b, ok, s => if sh.test t ok s then eval a true s else eval b false s
  | .each words, _, s => runEach sh (sh.body words s) s
  | .ret ok, _, s => .returned s ok
  | .exit, _, s => .exited s
  | .call body, ok, s => (eval body ok s).leave

theorem runEach_cons (c : κ) (cs : List κ) (s : σ) : runEach sh (c :: cs) s =
    if (sh.exec c s).2 then runEach sh cs (sh.exec c s).1 else .exited (sh.exec c s).1 := rfl

theorem eval_cmd (c : κ) (ok : Bool) (s : σ) : eval sh (.cmd c) ok s =
    if (sh.exec c s).2 then .next (sh.exec c s).1 true else .exited (sh.exec c s).1 := rfl

theorem eval_seq (a b : Script κ τ ν) (ok : Bool) (s : σ) :
    eval sh (.seq a b) ok s = (eval sh a ok s).andThen fun s' ok' => eval sh b ok' s' := rfl

theorem eval_branch (t : τ) (a b : Script κ τ ν) (ok : Bool) (s : σ) :
    eval sh (.branch t a b) ok s =
      if sh.test t ok s then eval sh a true s else eval sh b false s := rfl

theorem eval_call (body : Script κ τ ν) (ok : Bool) (s : σ) :
    eval sh (.call body) ok s = (eval sh body ok s).leave := rfl

end Semantics

section Status
variable {κ τ ν σ : Type*} {sh : Shell κ τ ν σ}

theorem runEach_next {cs : List κ} {s s' : σ} {ok : Bool} (next : runEach sh cs s = .next s' ok) :
    ok = true := by
  induction cs generalizing s with
  | nil =>
    cases next
    rfl
  | cons c cs ih =>
    rw [runEach_cons] at next
    split_ifs at next
    exact ih next

theorem eval_seq_next {a b : Script κ τ ν} {ok k : Bool} {s s'' : σ} :
    eval sh (.seq a b) ok s = .next s'' k ↔
      ∃ s' ok', eval sh a ok s = .next s' ok' ∧ eval sh b ok' s' = .next s'' k := by
  rw [eval_seq]
  cases eval sh a ok s with
  | next r ok' =>
    constructor
    · exact fun last => ⟨r, ok', rfl, last⟩
    · rintro ⟨_, _, same, last⟩
      cases same
      exact last
  | returned r ok' => simp [Result.andThen]
  | exited r => simp [Result.andThen]

theorem eval_seq_of_next {a b : Script κ τ ν} {ok ok' : Bool} {s r : σ}
    (first : eval sh a ok s = .next r ok') : eval sh (.seq a b) ok s = eval sh b ok' r := by
  rw [eval_seq, first, Result.andThen]

theorem eval_seq_returned {a b : Script κ τ ν} {ok k : Bool} {s s'' : σ} :
    eval sh (.seq a b) ok s = .returned s'' k ↔ eval sh a ok s = .returned s'' k ∨
      ∃ s' ok', eval sh a ok s = .next s' ok' ∧ eval sh b ok' s' = .returned s'' k := by
  rw [eval_seq]
  cases eval sh a ok s with
  | next r ok' =>
    constructor
    · exact fun last => .inr ⟨r, ok', rfl, last⟩
    · rintro (same | ⟨_, _, same, last⟩)
      · cases same
      · cases same
        exact last
  | returned r ok' => simp [Result.andThen]
  | exited r => simp [Result.andThen]

theorem eval_call_next {body : Script κ τ ν} {ok k : Bool} {s s' : σ} :
    eval sh (.call body) ok s = .next s' k ↔
      k = true ∧ (eval sh body ok s = .next s' true ∨ eval sh body ok s = .returned s' true) := by
  rw [eval_call]
  cases eval sh body ok s with
  | next r ok' => cases ok' <;> cases k <;> simp [Result.leave]
  | returned r ok' => cases ok' <;> cases k <;> simp [Result.leave]
  | exited r => simp [Result.leave]

theorem eval_next_ok {p : Script κ τ ν} {ok k : Bool} {s s' : σ}
    (next : eval sh p ok s = .next s' k) : k = true := by
  induction p generalizing ok s s' k with
  | skip => cases next; rfl
  | cmd c =>
    rw [eval_cmd] at next
    split_ifs at next
    cases next
    rfl
  | seq a b _ second =>
    obtain ⟨_, _, -, last⟩ := eval_seq_next.mp next
    exact second last
  | branch t a b yes no =>
    rw [eval_branch] at next
    split_ifs at next
    · exact yes next
    · exact no next
  | each words => exact runEach_next next
  | ret ok => cases next
  | exit => cases next
  | call body _ => exact (eval_call_next.mp next).1

theorem eval_status_branch {a b c : Script κ τ ν} {t : τ} (status : ∀ s, sh.test t true s = true)
    (ok : Bool) (s : σ) : eval sh (.seq a (.branch t b c)) ok s = eval sh (.seq a b) ok s := by
  rw [eval_seq, eval_seq]
  cases first : eval sh a ok s with
  | next s' ok' =>
    rw [eval_next_ok first]
    simp only [Result.andThen, eval_branch, status, if_true]
  | returned s' ok' => rfl
  | exited s' => rfl

theorem runEach_not_returned (cs : List κ) {k : Bool} (s : σ) {s' : σ} :
    runEach sh cs s ≠ .returned s' k := by
  induction cs generalizing s with
  | nil => exact fun same => by cases same
  | cons c cs ih =>
    rw [runEach_cons]
    split_ifs
    · exact ih _
    · simp

theorem eval_not_returned {p : Script κ τ ν} (none : p.returns = false) {ok k : Bool}
    {s s' : σ} : eval sh p ok s ≠ .returned s' k := by
  induction p generalizing ok s s' k with
  | skip => exact fun same => by cases same
  | cmd c =>
    rw [eval_cmd]
    split_ifs <;> simp
  | seq a b first second =>
    simp only [Script.returns, Bool.or_eq_false_iff] at none
    intro back
    rcases eval_seq_returned.mp back with early | ⟨_, _, -, late⟩
    · exact first none.1 early
    · exact second none.2 late
  | branch t a b yes no =>
    simp only [Script.returns, Bool.or_eq_false_iff] at none
    rw [eval_branch]
    split_ifs
    · exact yes none.1
    · exact no none.2
  | each words => exact runEach_not_returned _ s
  | ret k => cases none
  | exit => exact fun same => by cases same
  | call body _ =>
    rw [eval_call]
    cases eval sh body ok s with
    | next r ok' => cases ok' <;> simp [Result.leave]
    | returned r ok' => cases ok' <;> simp [Result.leave]
    | exited r => simp [Result.leave]

theorem eval_seq_right {a b b' : Script κ τ ν} (same : ∀ ok s, eval sh b ok s = eval sh b' ok s)
    (ok : Bool) (s : σ) : eval sh (.seq a b) ok s = eval sh (.seq a b') ok s := by
  rw [eval_seq, eval_seq]
  cases eval sh a ok s with
  | next s' ok' => exact same ok' s'
  | returned s' ok' => rfl
  | exited s' => rfl

theorem eval_call_body {b b' : Script κ τ ν} (same : ∀ ok s, eval sh b ok s = eval sh b' ok s)
    (ok : Bool) (s : σ) : eval sh (.call b) ok s = eval sh (.call b') ok s := by
  rw [eval_call, eval_call, same]

theorem runEach_plain (sure : ∀ c s, (sh.exec c s).2 = true) (cs : List κ) (s : σ) :
    ∃ s', runEach sh cs s = .next s' true := by
  induction cs generalizing s with
  | nil => exact ⟨s, rfl⟩
  | cons c cs ih =>
    rw [runEach_cons, if_pos (sure c s)]
    exact ih _

theorem eval_plain (sure : ∀ c s, (sh.exec c s).2 = true) {p : Script κ τ ν}
    (plain : p.plain = true) (ok : Bool) (s : σ) : ∃ s', eval sh p ok s = .next s' true := by
  induction p generalizing ok s with
  | skip => exact ⟨s, rfl⟩
  | cmd c => exact ⟨_, by rw [eval_cmd, if_pos (sure c s)]⟩
  | seq a b first second =>
    simp only [Script.plain, Bool.and_eq_true] at plain
    obtain ⟨r, early⟩ := first plain.1 ok s
    rw [eval_seq_of_next early]
    exact second plain.2 true r
  | branch t a b yes no =>
    simp only [Script.plain, Bool.and_eq_true] at plain
    rw [eval_branch]
    split_ifs
    · exact yes plain.1 true s
    · exact no plain.2 false s
  | each words => exact runEach_plain sure _ s
  | ret k => cases plain
  | exit => cases plain
  | call body inner =>
    obtain ⟨r, done⟩ := inner plain ok s
    exact ⟨r, by rw [eval_call, done]; rfl⟩

end Status

section Invariants
variable {κ τ ν σ : Type*} {sh : Shell κ τ ν σ}

theorem runEach_invariant {I : σ → Prop} {cs : List κ}
    (keep : ∀ c ∈ cs, ∀ s, I s → I (sh.exec c s).1) {s : σ} (start : I s) :
    I (runEach sh cs s).state := by
  induction cs generalizing s with
  | nil => exact start
  | cons c cs ih =>
    have now := keep c List.mem_cons_self s start
    rw [runEach_cons]
    split_ifs
    · exact ih (fun d listed => keep d (List.mem_cons_of_mem c listed)) now
    · exact now

/-- What every command of a script keeps, failing or not, the script keeps. -/
theorem eval_invariant {I : σ → Prop} {p : Script κ τ ν}
    (keep : ∀ c ∈ p.cmds, ∀ s, I s → I (sh.exec c s).1)
    (loop : ∀ w ∈ p.loops, ∀ s, ∀ c ∈ sh.body w s, ∀ s, I s → I (sh.exec c s).1)
    {ok : Bool} {s : σ} (start : I s) : I (eval sh p ok s).state := by
  induction p generalizing ok s with
  | skip => exact start
  | cmd c =>
    have now := keep c (List.mem_singleton.mpr rfl) s start
    rw [eval_cmd]
    split_ifs <;> exact now
  | seq a b first second =>
    have now : I (eval sh a ok s).state :=
      first (fun c listed => keep c (List.mem_append_left _ listed))
      (fun w listed => loop w (List.mem_append_left _ listed)) start
    rw [eval_seq]
    cases done : eval sh a ok s with
    | next s' ok' =>
      rw [done] at now
      exact second (fun c listed => keep c (List.mem_append_right _ listed))
        (fun w listed => loop w (List.mem_append_right _ listed)) now
    | returned s' ok' => rwa [done] at now
    | exited s' => rwa [done] at now
  | branch t a b yes no =>
    rw [eval_branch]
    split_ifs
    · exact yes (fun c listed => keep c (List.mem_append_left _ listed))
        (fun w listed => loop w (List.mem_append_left _ listed)) start
    · exact no (fun c listed => keep c (List.mem_append_right _ listed))
        (fun w listed => loop w (List.mem_append_right _ listed)) start
  | each words => exact runEach_invariant (loop words (List.mem_singleton.mpr rfl) s) start
  | ret k => exact start
  | exit => exact start
  | call body inner =>
    have now : I (eval sh body ok s).state := inner keep loop start
    rw [eval_call]
    cases done : eval sh body ok s with
    | next s' ok' => rw [done] at now; cases ok' <;> exact now
    | returned s' ok' => rw [done] at now; cases ok' <;> exact now
    | exited s' => rwa [done] at now

def Result.Goes (r : Result σ) (s : σ) : Prop := (∃ ok, r = .next s ok) ∨ ∃ ok, r = .returned s ok

theorem Result.Goes.state {r : Result σ} {s : σ} (goes : r.Goes s) : r.state = s := by
  rcases goes with ⟨_, rfl⟩ | ⟨_, rfl⟩ <;> rfl

theorem goes_cmd {c : κ} {ok : Bool} {s s' : σ} (goes : (eval sh (.cmd c) ok s).Goes s') :
    sh.exec c s = (s', true) := by
  rw [eval_cmd] at goes
  split_ifs at goes with ok
  · rw [← goes.state, ← ok]
    rfl
  · rcases goes with ⟨_, same⟩ | ⟨_, same⟩ <;> cases same

theorem goes_call {body : Script κ τ ν} {ok : Bool} {s s' : σ}
    (goes : (eval sh (.call body) ok s).Goes s') : (eval sh body ok s).Goes s' := by
  have none : (Script.call body).returns = false := rfl
  rcases goes with ⟨k, next⟩ | ⟨k, back⟩
  · rcases (eval_call_next.mp next).2 with inner | inner
    · exact .inl ⟨true, inner⟩
    · exact .inr ⟨true, inner⟩
  · exact absurd back (eval_not_returned none)

theorem goes_seq {a b : Script κ τ ν} (none : a.returns = false) {ok : Bool} {s s' : σ}
    (goes : (eval sh (.seq a b) ok s).Goes s') :
    ∃ r ok', eval sh a ok s = .next r ok' ∧ (eval sh b ok' r).Goes s' := by
  rcases goes with ⟨k, next⟩ | ⟨k, back⟩
  · obtain ⟨r, ok', first, rest⟩ := eval_seq_next.mp next
    exact ⟨r, ok', first, .inl ⟨k, rest⟩⟩
  · rcases eval_seq_returned.mp back with early | ⟨r, ok', first, rest⟩
    · exact absurd early (eval_not_returned none)
    · exact ⟨r, ok', first, .inr ⟨k, rest⟩⟩

theorem runEach_kept {I : σ → Prop} {cs : List κ}
    (keep : ∀ c ∈ cs, ∀ s s', I s → sh.exec c s = (s', true) → I s') {s s' : σ} (start : I s)
    (goes : (runEach sh cs s).Goes s') : I s' := by
  induction cs generalizing s with
  | nil => rwa [← goes.state]
  | cons c cs ih =>
    rw [runEach_cons] at goes
    split_ifs at goes with ok
    · refine ih (fun d listed => keep d (List.mem_cons_of_mem c listed)) ?_ goes
      exact keep c List.mem_cons_self s _ start (by rw [← ok])
    · rcases goes with ⟨_, same⟩ | ⟨_, same⟩ <;> cases same

theorem eval_kept {I : σ → Prop} {p : Script κ τ ν}
    (keep : ∀ c ∈ p.cmds, ∀ s s', I s → sh.exec c s = (s', true) → I s')
    (loop : ∀ w ∈ p.loops, ∀ s, ∀ c ∈ sh.body w s, ∀ s s', I s → sh.exec c s = (s', true) → I s')
    {ok : Bool} {s s' : σ} (start : I s) (goes : (eval sh p ok s).Goes s') : I s' := by
  induction p generalizing ok s s' with
  | skip => rwa [← goes.state]
  | cmd c => exact keep c (List.mem_singleton.mpr rfl) s s' start (goes_cmd goes)
  | seq a b first second =>
    have left {r : σ} (part : (eval sh a ok s).Goes r) : I r :=
      first (fun c listed => keep c (List.mem_append_left _ listed))
        (fun w listed => loop w (List.mem_append_left _ listed)) start part
    have right {r : σ} {k : Bool} (reached : I r) (part : (eval sh b k r).Goes s') : I s' :=
      second (fun c listed => keep c (List.mem_append_right _ listed))
        (fun w listed => loop w (List.mem_append_right _ listed)) reached part
    rcases goes with ⟨k, next⟩ | ⟨k, back⟩
    · obtain ⟨r, ok', early, late⟩ := eval_seq_next.mp next
      exact right (left (.inl ⟨ok', early⟩)) (.inl ⟨k, late⟩)
    · rcases eval_seq_returned.mp back with early | ⟨r, ok', early, late⟩
      · exact left (.inr ⟨k, early⟩)
      · exact right (left (.inl ⟨ok', early⟩)) (.inr ⟨k, late⟩)
  | branch t a b yes no =>
    rw [eval_branch] at goes
    split_ifs at goes
    · exact yes (fun c listed => keep c (List.mem_append_left _ listed))
        (fun w listed => loop w (List.mem_append_left _ listed)) start goes
    · exact no (fun c listed => keep c (List.mem_append_right _ listed))
        (fun w listed => loop w (List.mem_append_right _ listed)) start goes
  | each words => exact runEach_kept (loop words (List.mem_singleton.mpr rfl) s) start goes
  | ret k => rwa [← goes.state]
  | exit => rcases goes with ⟨_, same⟩ | ⟨_, same⟩ <;> cases same
  | call body inner => exact inner keep loop start (goes_call goes)

/-- A script that settles and goes through leaves what the commands of the first kind make. -/
theorem eval_settles {I : σ → Prop} {makes keeps : κ → Bool} {quiet : ν → Bool}
    (made : ∀ c, makes c = true → ∀ s s', sh.exec c s = (s', true) → I s')
    (kept : ∀ c, keeps c = true → ∀ s s', I s → sh.exec c s = (s', true) → I s')
    (loop : ∀ w, quiet w = true → ∀ s, ∀ c ∈ sh.body w s, keeps c = true) {p : Script κ τ ν}
    (settled : p.settles makes keeps quiet = true) {ok : Bool} {s s' : σ}
    (goes : (eval sh p ok s).Goes s') : I s' := by
  induction p generalizing ok s s' with
  | cmd c => exact made c settled s s' (goes_cmd goes)
  | seq a b first second =>
    simp only [Script.settles, Bool.and_eq_true, Bool.or_eq_true, Bool.not_eq_true',
      List.all_eq_true] at settled
    obtain ⟨none, late | ⟨⟨early, cmds⟩, loops⟩⟩ := settled
    · obtain ⟨r, ok', -, rest⟩ := goes_seq none goes
      exact second late rest
    · obtain ⟨r, ok', ran, rest⟩ := goes_seq none goes
      refine eval_kept (fun c listed => kept c (cmds c listed)) (fun w listed s c own => ?_)
        (first early (.inl ⟨ok', ran⟩)) rest
      exact kept c (loop w (loops w listed) s c own)
  | branch t a b yes no =>
    simp only [Script.settles, Bool.and_eq_true] at settled
    rw [eval_branch] at goes
    split_ifs at goes
    · exact yes settled.1 goes
    · exact no settled.2 goes
  | call body inner => exact inner settled (goes_call goes)
  | skip | each words | ret k | exit => cases settled

end Invariants

end LempStack.ErrExit
