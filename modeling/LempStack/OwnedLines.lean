import Mathlib.Data.List.Nodup
import Mathlib.Data.List.Range
import Mathlib.Logic.Function.Basic

/-! Texts of lines, each of which belongs to one key or to none. A reader folds over the
lines and lets a line change the part of its own key, so what it makes of a text is
decided key by key. An editor uses up the places of a key for new lines, appends what
finds no place, and blanks the places it has not used. -/

namespace LempStack.OwnedLines

variable {α κ : Type*} [DecidableEq κ] (owner : α → Option κ)

def own (k : κ) (ls : List α) : List α := ls.filter fun l => owner l = some k

def places (k : κ) (ls : List α) : List ℕ :=
  (List.range ls.length).filter fun i => ls[i]?.bind owner = some k

section Places
variable {owner} {k : κ} {ls : List α}

theorem mem_places {i : ℕ} : i ∈ places owner k ls ↔ ls[i]?.bind owner = some k := by
  rw [places, List.mem_filter, List.mem_range, decide_eq_true_eq]
  refine and_iff_right_of_imp fun owned => ?_
  obtain ⟨l, found, -⟩ := Option.bind_eq_some_iff.mp owned
  exact (List.getElem?_eq_some_iff.mp found).1

theorem places_nodup (owner : α → Option κ) (k : κ) (ls : List α) : (places owner k ls).Nodup :=
  List.nodup_range.filter _

theorem lt_of_mem_places {i : ℕ} (place : i ∈ places owner k ls) : i < ls.length :=
  List.mem_range.mp (List.mem_filter.mp place).1

theorem places_append (k : κ) (ls : List α) (l : α) :
    places owner k (ls ++ [l]) =
      places owner k ls ++ if owner l = some k then [ls.length] else [] := by
  have before : (List.range ls.length).filter (fun i => (ls ++ [l])[i]?.bind owner = some k) =
      places owner k ls := by
    refine List.filter_congr fun i listed => ?_
    rw [List.getElem?_append_left (List.mem_range.mp listed)]
  rw [places, List.length_append, List.length_singleton, List.range_succ, List.filter_append,
    before, List.filter_singleton, List.getElem?_concat_length, Option.bind_some, Bool.cond_decide]

theorem places_set {i : ℕ} {l : α} (same : owner l = ls[i]?.bind owner) (k : κ) :
    places owner k (ls.set i l) = places owner k ls := by
  rw [places, List.length_set]
  refine List.filter_congr fun j listed => ?_
  rcases eq_or_ne i j with rfl | other
  · rw [List.getElem?_set_self (List.mem_range.mp listed), Option.bind_some, same]
  · rw [List.getElem?_set_ne other]

theorem own_flatMap {β : Type*} {f : β → List α} {group : β → Option κ}
    (same : ∀ b, ∀ l ∈ f b, owner l = group b) (k : κ) (bs : List β) :
    own owner k (bs.flatMap f) = (bs.filter fun b => group b = some k).flatMap f := by
  induction bs with
  | nil => rfl
  | cons b bs ih =>
    rw [own] at ih
    rw [own, List.flatMap_cons, List.filter_append, ih]
    by_cases owned : group b = some k
    · have all : (f b).filter (fun l => owner l = some k) = f b :=
        List.filter_eq_self.mpr fun l listed => decide_eq_true ((same b l listed).trans owned)
      rw [all, List.filter_cons_of_pos (by simpa using owned), List.flatMap_cons]
    · have unowned : (f b).filter (fun l => owner l = some k) = [] :=
        List.filter_eq_nil_iff.mpr fun l listed => by rw [same b l listed]; simpa using owned
      rw [unowned, List.nil_append, List.filter_cons_of_neg (by simpa using owned)]

theorem own_eq_filterMap (k : κ) (ls : List α) :
    own owner k ls = (places owner k ls).filterMap fun i => ls[i]? := by
  induction ls using List.reverseRecOn with
  | nil => rfl
  | append_singleton ls l ih =>
    have before : (places owner k ls).filterMap (fun i => (ls ++ [l])[i]?) =
        (places owner k ls).filterMap fun i => ls[i]? := by
      refine List.filterMap_congr fun i place => ?_
      rw [List.getElem?_append_left (lt_of_mem_places place)]
    rw [places_append, List.filterMap_append, before, ← ih, own, own, List.filter_append,
      List.filter_singleton, Bool.cond_decide]
    split_ifs with owned
    · rw [List.filterMap_cons, List.getElem?_concat_length, List.filterMap_nil]
    · rw [List.filterMap_nil]

end Places

section Edit
variable {owner}

/-- The first places of a key hold the lines `done`, the others are `pending`. -/
def Written (owner : α → Option κ) (k : κ) (ls : List α) (pending : List ℕ) (done : List α) :
    Prop :=
  ∃ front, places owner k ls = front ++ pending ∧ front.map (fun i => ls[i]?) = done.map some

/-- What becomes of lines for a key that has so many places: where none is left, only a line
that must be written is. -/
def emitted : ℕ → List (α × Bool) → List α
  | _, [] => []
  | n + 1, w :: ws => w.1 :: emitted n ws
  | 0, w :: ws => if w.2 then w.1 :: emitted 0 ws else emitted 0 ws

theorem emitted_cons (n : ℕ) (w : α × Bool) (ws : List (α × Bool)) :
    emitted n (w :: ws) = emitted n [w] ++ emitted (n - 1) ws := by
  cases n with
  | zero =>
    simp only [emitted]
    split_ifs <;> rfl
  | succ n => rfl

theorem emitted_map {β : Type*} (f : α → β) (n : ℕ) (ws : List (α × Bool)) :
    emitted n (ws.map fun w => (f w.1, w.2)) = (emitted n ws).map f := by
  induction ws generalizing n with
  | nil => rw [List.map_nil, emitted, emitted, List.map_nil]
  | cons w ws ih =>
    cases n with
    | succ n => simp only [List.map_cons, emitted, ih]
    | zero =>
      simp only [List.map_cons, emitted, ih]
      split_ifs <;> rfl

theorem emitted_eq_map (n : ℕ) (ws : List (α × Bool))
    (all : ws.length ≤ n ∨ ∀ w ∈ ws, w.2 = true) : emitted n ws = ws.map Prod.fst := by
  induction ws generalizing n with
  | nil => rw [emitted, List.map_nil]
  | cons w ws ih =>
    cases n with
    | succ n =>
      rw [emitted, List.map_cons, ih n]
      exact all.imp Nat.le_of_succ_le_succ fun must v listed =>
        must v (List.mem_cons_of_mem w listed)
    | zero =>
      have must := all.resolve_left (by simp)
      rw [emitted, if_pos (must w List.mem_cons_self), List.map_cons, ih 0]
      exact .inr fun v listed => must v (List.mem_cons_of_mem w listed)

theorem mem_emitted {n : ℕ} {ws : List (α × Bool)} {l : α} (listed : l ∈ emitted n ws) :
    ∃ w ∈ ws, w.1 = l := by
  induction ws generalizing n with
  | nil => rw [emitted] at listed; cases listed
  | cons w ws ih =>
    rw [emitted_cons, List.mem_append] at listed
    rcases listed with first | later
    · have same : l = w.1 := by
        cases n with
        | succ n => simpa [emitted] using first
        | zero =>
          rw [emitted] at first
          split_ifs at first
          · simpa [emitted] using first
          · simp [emitted] at first
      exact ⟨w, List.mem_cons_self, same.symm⟩
    · obtain ⟨v, listed, same⟩ := ih later
      exact ⟨v, List.mem_cons_of_mem w listed, same⟩

theorem filter_set {p : α → Bool} {ls : List α} {i : ℕ} {l : α} (new : p l = false)
    (old : ∀ x ∈ ls[i]?, p x = false) : (ls.set i l).filter p = ls.filter p := by
  induction ls generalizing i with
  | nil => rfl
  | cons x ls ih =>
    cases i with
    | zero =>
      have first : p x = false := old x rfl
      rw [List.set_cons_zero, List.filter_cons_of_neg (by simp [new]),
        List.filter_cons_of_neg (by simp [first])]
    | succ i =>
      rw [List.set_cons_succ, List.filter_cons, List.filter_cons, ih fun y found => old y found]

variable {k : κ} {ls : List α} {pending : List ℕ} {done : List α}

theorem Written.init (k : κ) (ls : List α) : Written owner k ls (places owner k ls) [] :=
  ⟨[], rfl, rfl⟩

theorem Written.mem_places (written : Written owner k ls pending done) {i : ℕ}
    (listed : i ∈ pending) : i ∈ places owner k ls := by
  obtain ⟨front, split, -⟩ := written
  rw [split]
  exact List.mem_append_right front listed

theorem map_getElem?_set {front : List ℕ} {i : ℕ} {l : α} (outside : i ∉ front) :
    front.map (fun j => (ls.set i l)[j]?) = front.map fun j => ls[j]? := by
  refine List.map_congr_left fun j listed => List.getElem?_set_ne ?_
  rintro rfl
  exact outside listed

theorem Written.replace {i : ℕ} {l : α} (written : Written owner k ls (i :: pending) done)
    (owned : owner l = some k) : Written owner k (ls.set i l) pending (done ++ [l]) := by
  have place := written.mem_places List.mem_cons_self
  obtain ⟨front, split, held⟩ := written
  have distinct := places_nodup owner k ls
  rw [split] at distinct
  have outside : i ∉ front := fun listed =>
    List.disjoint_of_nodup_append distinct listed List.mem_cons_self
  refine ⟨front ++ [i], ?_, ?_⟩
  · rw [places_set (owned.trans (OwnedLines.mem_places.mp place).symm), split, List.append_assoc,
      List.singleton_append]
  · rw [List.map_append, map_getElem?_set outside, held, List.map_append, List.map_singleton,
      List.getElem?_set_self (lt_of_mem_places place), List.map_singleton]

theorem Written.replace_other {k' : κ} (other : k' ≠ k) {i : ℕ} {l : α}
    (written : Written owner k ls pending done) (place : i ∈ places owner k' ls)
    (owned : owner l = some k') : Written owner k (ls.set i l) pending done := by
  have here := OwnedLines.mem_places.mp place
  obtain ⟨front, split, held⟩ := written
  have outside : i ∉ front := fun listed => by
    have twice : i ∈ places owner k ls := by
      rw [split]
      exact List.mem_append_left pending listed
    rw [OwnedLines.mem_places, here] at twice
    exact other (Option.some.inj twice)
  exact ⟨front, by rw [places_set (owned.trans here.symm), split],
    by rw [map_getElem?_set outside, held]⟩

theorem Written.append_other {l : α} (written : Written owner k ls pending done)
    (free : owner l ≠ some k) : Written owner k (ls ++ [l]) pending done := by
  obtain ⟨front, split, held⟩ := written
  refine ⟨front, by rw [places_append, if_neg free, List.append_nil, split], ?_⟩
  rw [← held]
  refine List.map_congr_left fun i listed => List.getElem?_append_left ?_
  have place : i ∈ places owner k ls := by
    rw [split]
    exact List.mem_append_left pending listed
  exact lt_of_mem_places place

theorem Written.append {l : α} (written : Written owner k ls [] done) (owned : owner l = some k) :
    Written owner k (ls ++ [l]) [] (done ++ [l]) := by
  obtain ⟨front, split, held⟩ := written
  rw [List.append_nil] at split
  have before : front.map (fun i => (ls ++ [l])[i]?) = done.map some := by
    rw [← held]
    refine List.map_congr_left fun i listed => List.getElem?_append_left ?_
    rw [← split] at listed
    exact lt_of_mem_places listed
  refine ⟨front ++ [ls.length], ?_, ?_⟩
  · rw [places_append, if_pos owned, split, List.append_nil]
  · rw [List.map_append, before, List.map_singleton, List.getElem?_concat_length, List.map_append,
      List.map_singleton]

end Edit

section Blank

def blankAll (blank : α) (is : List ℕ) (ls : List α) : List α :=
  is.foldl (fun ls i => ls.set i blank) ls

variable {owner} {k : κ} {ls : List α} {blank : α} {is : List ℕ}

theorem length_blankAll (blank : α) (is : List ℕ) (ls : List α) :
    (blankAll blank is ls).length = ls.length := by
  induction is generalizing ls with
  | nil => rfl
  | cons i is ih => rw [blankAll, List.foldl_cons, ← blankAll, ih, List.length_set]

theorem getElem?_blankAll (blank : α) (is : List ℕ) (ls : List α) (j : ℕ) :
    (blankAll blank is ls)[j]? = if j ∈ is then ls[j]?.map fun _ => blank else ls[j]? := by
  induction is generalizing ls with
  | nil => rw [if_neg List.not_mem_nil]; rfl
  | cons i is ih =>
    rw [blankAll, List.foldl_cons, ← blankAll, ih, List.getElem?_set]
    grind

theorem filter_blankAll {p : α → Bool} (blanks : p blank = false)
    (out : ∀ i ∈ is, ∀ x ∈ ls[i]?, p x = false) :
    (blankAll blank is ls).filter p = ls.filter p := by
  induction is generalizing ls with
  | nil => rfl
  | cons i is ih =>
    obtain ⟨here, later⟩ := List.forall_mem_cons.mp out
    rw [blankAll, List.foldl_cons, ← blankAll, ih, filter_set blanks here]
    intro j listed x found
    rcases eq_or_ne i j with rfl | other
    · rw [List.getElem?_set] at found
      grind
    · rw [List.getElem?_set_ne other] at found
      exact later j listed x found

theorem mem_blankAll {l : α} (listed : l ∈ blankAll blank is ls) : l = blank ∨ l ∈ ls := by
  obtain ⟨j, found⟩ := List.mem_iff_getElem?.mp listed
  rw [getElem?_blankAll] at found
  split_ifs at found with inside
  · obtain ⟨-, -, same⟩ := Option.map_eq_some_iff.mp found
    exact .inl same.symm
  · exact .inr (List.mem_of_getElem? found)

theorem places_blankAll (inert : owner blank = none) :
    places owner k (blankAll blank is ls) = (places owner k ls).filter (· ∉ is) := by
  rw [places, length_blankAll, places, List.filter_filter]
  refine List.filter_congr fun i _ => ?_
  rw [getElem?_blankAll]
  by_cases inside : i ∈ is
  · cases ls[i]? <;> simp [inside, inert]
  · simp [inside]

/-- Once the places that are still pending are blanked, a key has the lines done. -/
theorem Written.own_blankAll {pending : List ℕ} {done : List α}
    (written : Written owner k ls pending done) (inert : owner blank = none)
    (all : ∀ i ∈ pending, i ∈ is) (only : ∀ i ∈ is, i ∈ places owner k ls → i ∈ pending) :
    own owner k (blankAll blank is ls) = done := by
  obtain ⟨front, split, held⟩ := written
  have distinct := places_nodup owner k ls
  rw [split] at distinct
  have outside : ∀ i ∈ front, i ∉ is := fun i listed inside =>
    List.disjoint_of_nodup_append distinct listed
      (only i inside (by rw [split]; exact List.mem_append_left pending listed))
  have kept : (front ++ pending).filter (· ∉ is) = front := by
    rw [List.filter_append, List.filter_eq_self.mpr (by simpa using outside),
      List.filter_eq_nil_iff.mpr (by simpa using all), List.append_nil]
  have read : front.filterMap (fun i => (blankAll blank is ls)[i]?) =
      front.filterMap fun i => ls[i]? := by
    refine List.filterMap_congr fun i listed => ?_
    rw [getElem?_blankAll, if_neg (outside i listed)]
  calc own owner k (blankAll blank is ls)
      = front.filterMap fun i => ls[i]? := by
        rw [own_eq_filterMap, places_blankAll inert, split, kept, read]
    _ = (front.map fun i => ls[i]?).filterMap id := by rw [List.filterMap_map]; rfl
    _ = done := by rw [held, List.filterMap_map]; exact List.filterMap_some

end Blank

section Read
variable {σ ε : Type*} (change : α → σ → Except ε σ) (check : α → Except ε Unit)

def readLine (s : κ → σ) (l : α) : Except ε (κ → σ) :=
  match owner l with
  | none => (check l).map fun _ => s
  | some k => (change l (s k)).map (Function.update s k)

/-- A reading succeeds when the lines without a key pass their check and the lines of every
key, read by themselves, succeed; the keys do not interfere. -/
theorem foldlM_readLine_iff {ls : List α} {s s' : κ → σ} :
    ls.foldlM (readLine owner change check) s = .ok s' ↔
      (∀ l ∈ ls, owner l = none → check l = .ok ()) ∧
        ∀ k, (own owner k ls).foldlM (fun v l => change l v) (s k) = .ok (s' k) := by
  induction ls generalizing s with
  | nil => simp [own, pure, Except.pure, funext_iff]
  | cons l ls ih =>
    rw [List.foldlM_cons]
    cases owned : owner l with
    | none =>
      have same (k : κ) : own owner k (l :: ls) = own owner k ls := by simp [own, owned]
      simp only [same, List.forall_mem_cons, owned, forall_const]
      cases passed : check l with
      | error err => simp [readLine, owned, passed, Except.map, bind, Except.bind]
      | ok u =>
        have read : readLine owner change check s l = .ok s := by
          simp [readLine, owned, passed, Except.map]
        rw [read]
        simp only [true_and]
        exact ih
    | some k =>
      have others {k' : κ} (other : k' ≠ k) : own owner k' (l :: ls) = own owner k' ls := by
        simp [own, owned, other.symm]
      have mine : own owner k (l :: ls) = l :: own owner k ls := by simp [own, owned]
      simp only [List.forall_mem_cons, owned, reduceCtorEq, false_implies, true_and]
      cases changed : change l (s k) with
      | error err =>
        have read : readLine owner change check s l = .error err := by
          simp [readLine, owned, changed, Except.map]
        rw [read]
        refine iff_of_false (by simp [bind, Except.bind]) fun all => ?_
        have failed := all.2 k
        rw [mine, List.foldlM_cons, changed] at failed
        cases failed
      | ok v =>
        have read : readLine owner change check s l = .ok (Function.update s k v) := by
          simp [readLine, owned, changed, Except.map]
        rw [read]
        refine ih.trans (and_congr_right fun _ => forall_congr' fun k' => ?_)
        rcases eq_or_ne k' k with rfl | other
        · rw [Function.update_self, mine, List.foldlM_cons, changed]
          rfl
        · rw [Function.update_of_ne other, others other]

theorem exists_ok {σ ε : Type*} {x : Except ε σ} (ok : x.toBool = true) : ∃ a, x = .ok a := by
  cases x with
  | error err => cases ok
  | ok a => exact ⟨a, rfl⟩

/-- Steps that agree on the lines read the same. -/
theorem foldlM_congr_mem {step step' : σ → α → Except ε σ} {ls : List α}
    (same : ∀ l ∈ ls, ∀ v, step v l = step' v l) (v : σ) :
    ls.foldlM step v = ls.foldlM step' v := by
  induction ls generalizing v with
  | nil => rfl
  | cons l ls ih =>
    rw [List.foldlM_cons, List.foldlM_cons, same l List.mem_cons_self]
    exact congrArg _ (funext fun w => ih (fun m listed => same m (List.mem_cons_of_mem l listed)) w)

theorem foldlM_keeps {step : σ → α → Except ε σ} {P : σ → Prop} {ls : List α}
    (keeps : ∀ l ∈ ls, ∀ v v', P v → step v l = .ok v' → P v') {v v' : σ} (start : P v)
    (read : ls.foldlM step v = .ok v') : P v' := by
  induction ls generalizing v with
  | nil =>
    cases read
    exact start
  | cons l ls ih =>
    rw [List.foldlM_cons] at read
    cases changed : step v l with
    | error err =>
      rw [changed] at read
      cases read
    | ok w =>
      rw [changed] at read
      exact ih (fun m listed => keeps m (List.mem_cons_of_mem l listed))
        (keeps l List.mem_cons_self v w start changed) read

end Read

end LempStack.OwnedLines
