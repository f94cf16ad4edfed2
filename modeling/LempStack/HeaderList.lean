import Mathlib.Data.List.Basic

/-! HTTP header lists. Names are compared without regard to letter case; reading
takes the first field of a name or joins all of them into one list, unsetting drops
all of them, setting replaces them by one field at the end. -/

namespace LempStack.HeaderList

abbrev Headers := List (String × String)

def lower (name : String) : List Char := name.toList.map Char.toLower

def sameName (a b : String) : Bool := lower a == lower b

def get? (hs : Headers) (name : String) : Option String :=
  (hs.find? fun f => sameName f.1 name).map Prod.snd

/-- The fields of a name as one list, which is what repeated fields stand for. -/
def joined? (hs : Headers) (name : String) : Option String :=
  match (hs.filter fun f => sameName f.1 name).map Prod.snd with
  | [] => none
  | value :: values => some (values.foldl (fun list member => list ++ ", " ++ member) value)

def unset (hs : Headers) (name : String) : Headers :=
  hs.filter fun f => !sameName f.1 name

def put (hs : Headers) (name value : String) : Headers := unset hs name ++ [(name, value)]

def merge (new old : Headers) : Headers :=
  new ++ old.filter fun f => !new.any fun g => sameName g.1 f.1

/-- Cut at the commas that stand outside quoted strings. -/
def cutCommas : Bool → List Char → List Char → List (List Char)
  | _, cur, [] => [cur.reverse]
  | true, cur, '\\' :: c :: cs => cutCommas true (c :: '\\' :: cur) cs
  | quoted, cur, '"' :: cs => cutCommas (!quoted) ('"' :: cur) cs
  | false, cur, ',' :: cs => cur.reverse :: cutCommas false [] cs
  | quoted, cur, c :: cs => cutCommas quoted (c :: cur) cs

def trimBlanks (w : List Char) : List Char :=
  ((w.dropWhile fun c => c == ' ' || c == '\t').reverse.dropWhile
    fun c => c == ' ' || c == '\t').reverse

def listMembers (value : String) : List (List Char) :=
  (cutCommas false [] value.toList).map trimBlanks

/-- The value has the directive, alone or with an argument, in any letter case. -/
def hasDirective (value name : String) : Bool :=
  (listMembers value).any fun w =>
    (trimBlanks (w.takeWhile (· ≠ '='))).map Char.toLower == lower name

example : joined? [("Vary", "Accept"), ("vary", "Cookie")] "Vary" = some "Accept, Cookie" := by
  decide

example : hasDirective "ext=\"a, private\", public" "private" = false := by decide

theorem sameName_of_sameName {a b c : String} (h : sameName a b = true) :
    sameName a c = sameName b c := by
  simp only [sameName, beq_iff_eq] at h ⊢
  rw [h]

theorem unset_comm (hs : Headers) (a b : String) : unset (unset hs a) b = unset (unset hs b) a := by
  simp only [unset, List.filter_filter, Bool.and_comm]

theorem unset_idem (hs : Headers) (a : String) : unset (unset hs a) a = unset hs a := by
  simp [unset, List.filter_filter]

theorem get?_unset_of_ne (hs : Headers) {a b : String} (ne : sameName a b = false) :
    get? (unset hs a) b = get? hs b := by
  induction hs with
  | nil => rfl
  | cons f hs ih =>
    cases drop : sameName f.1 a with
    | true =>
      have other : sameName f.1 b = false := by rw [sameName_of_sameName drop, ne]
      have step : unset (f :: hs) a = unset hs a := by simp [unset, drop]
      rw [step, ih]
      simp [get?, other]
    | false =>
      have step : unset (f :: hs) a = f :: unset hs a := by simp [unset, drop]
      rw [step]
      cases here : sameName f.1 b with
      | true => simp [get?, here]
      | false => simpa [get?, here] using ih

theorem unset_put_of_ne (hs : Headers) {a b : String} (value : String)
    (ne : sameName a b = false) : unset (put hs a value) b = put (unset hs b) a value := by
  have kept : unset [(a, value)] b = [(a, value)] := by simp [unset, ne]
  have split : unset (unset hs a ++ [(a, value)]) b =
      unset (unset hs a) b ++ unset [(a, value)] b := List.filter_append ..
  rw [put, split, kept, unset_comm, put]

theorem get?_put_of_ne (hs : Headers) {a b : String} (value : String)
    (ne : sameName a b = false) : get? (put hs a value) b = get? hs b := by
  have append : get? (unset hs a ++ [(a, value)]) b =
      (get? (unset hs a) b).or (get? [(a, value)] b) := by
    simp [get?, List.find?_append, Option.map_or]
  have none : get? [(a, value)] b = Option.none := by simp [get?, ne]
  rw [put, append, none, Option.or_none, get?_unset_of_ne hs ne]

end LempStack.HeaderList
