import LempStack.NumericFields
import Mathlib.Data.List.DropRight
import Mathlib.Data.List.Flatten

/-! The monitor script of the RabbitMQ set-up. It reads the table of the queues with
three awk filters on the second and third field of a line. The table comes with lines
that are not about a queue, and the words in them are compared as strings, so the header
counts as a queue with messages and as one above the threshold. -/

namespace LempStack.QueueMonitor
open TextFields NumericFields

structure Queue where
  name : Text
  messages : Nat
  consumers : Nat
  state : Text
  deriving DecidableEq, Repr

structure Listing where
  timeout : Text
  vhost : Text
  queues : List Queue
  deriving DecidableEq, Repr

section Output

def row (q : Queue) : Text :=
  q.name ++ '\t' :: (Nat.toDigits 10 q.messages ++ '\t' :: (Nat.toDigits 10 q.consumers ++
    '\t' :: q.state))

def header : Text := "name\tmessages\tconsumers\tstate".toList

def timeoutLine (l : Listing) : Text := "Timeout: ".toList ++ (l.timeout ++ " seconds ...".toList)

def listingLine (l : Listing) : Text :=
  "Listing queues for vhost ".toList ++ (l.vhost ++ " ...".toList)

def output (l : Listing) : List Text :=
  timeoutLine l :: listingLine l :: header :: l.queues.map row

/-- The records awk reads; a row with a line break in a name is more than one. -/
def records (l : Listing) : List Text := (output l).flatMap lines

end Output

section Script

def threshold : Nat := 100

def second (line : Text) : Option Text := (fields line)[1]?

def third (line : Text) : Option Text := (fields line)[2]?

/-- The lines of a command substitution, without line breaks at its end. -/
def captured (ls : List Text) : List Text := ls.rdropWhile List.isEmpty

def queuesWithMessages (l : Listing) : List Text :=
  captured ((records l).filter fun line => exceeds 0 (second line))

def highLoadQueues (l : Listing) : List Text :=
  captured ((queuesWithMessages l).filter fun line => exceeds threshold (second line))

def noConsumerQueues (l : Listing) : List Text :=
  captured ((queuesWithMessages l).filter fun line => isZero (third line))

inductive Report where
  | allEmpty
  | found (queues highLoad noConsumer : List Text)
  deriving DecidableEq, Repr

def monitor (l : Listing) : Report :=
  if queuesWithMessages l = [] then .allEmpty
  else .found (queuesWithMessages l) (highLoadQueues l) (noConsumerQueues l)

namespace Report

def highLoad : Report → List Text
  | allEmpty => []
  | found _ highLoad _ => highLoad

def noConsumer : Report → List Text
  | allEmpty => []
  | found _ _ noConsumer => noConsumer

end Report

end Script

/-- The report says of every queue what is the case, and nothing else. -/
structure Exact (l : Listing) : Prop where
  allEmpty : monitor l = .allEmpty ↔ ∀ q ∈ l.queues, q.messages = 0
  highLoad : (monitor l).highLoad.Perm
    ((l.queues.filter fun q => threshold < q.messages).flatMap fun q => lines (row q))
  noConsumer : (monitor l).noConsumer.Perm
    ((l.queues.filter fun q => 1 ≤ q.messages ∧ q.consumers = 0).flatMap fun q => lines (row q))

section Filters

theorem exceeds_second_nonempty {bound : Nat} {line : Text}
    (passes : exceeds bound (second line) = true) : line.isEmpty = false := by
  cases line with
  | nil => cases passes
  | cons c cs => rfl

theorem captured_eq {ls : List Text} (nonempty : ∀ line ∈ ls, line.isEmpty = false) :
    captured ls = ls := by
  refine List.rdropWhile_eq_self_iff.mpr fun some empty => ?_
  rw [nonempty _ (List.getLast_mem some)] at empty
  cases empty

theorem queuesWithMessages_eq (l : Listing) :
    queuesWithMessages l = (records l).filter fun line => exceeds 0 (second line) :=
  captured_eq fun _ listed => exceeds_second_nonempty (List.mem_filter.mp listed).2

theorem highLoadQueues_eq (l : Listing) :
    highLoadQueues l = (records l).filter fun line =>
      exceeds threshold (second line) && exceeds 0 (second line) := by
  rw [highLoadQueues, captured_eq fun _ listed =>
    exceeds_second_nonempty (List.mem_filter.mp listed).2, queuesWithMessages_eq,
    List.filter_filter]

theorem noConsumerQueues_eq (l : Listing) :
    noConsumerQueues l = (records l).filter fun line =>
      isZero (third line) && exceeds 0 (second line) := by
  rw [noConsumerQueues, queuesWithMessages_eq, List.filter_filter]
  refine captured_eq fun line listed => ?_
  have passes := (List.mem_filter.mp listed).2
  rw [Bool.and_eq_true] at passes
  exact exceeds_second_nonempty passes.2

end Filters

section Header

theorem lines_header : lines header = [header] := by decide

theorem header_exceeds : exceeds threshold (second header) = true ∧
    exceeds 0 (second header) = true := by decide

theorem records_split (l : Listing) :
    records l = (lines (timeoutLine l) ++ lines (listingLine l)) ++
      header :: l.queues.flatMap fun q => lines (row q) := by
  simp only [records, output, List.flatMap_cons, lines_header, List.flatMap_map,
    List.singleton_append, List.append_assoc]

theorem monitor_eq_found (l : Listing) :
    monitor l = .found (queuesWithMessages l) (highLoadQueues l) (noConsumerQueues l) := by
  have listed : header ∈ queuesWithMessages l := by
    rw [queuesWithMessages_eq, List.mem_filter, records_split]
    exact ⟨by simp, header_exceeds.2⟩
  rw [monitor, if_neg (List.ne_nil_of_mem listed)]

/-- A filter over more than the wanted lines does not give the wanted ones: those it
lets through of the rest are not fewer than the wanted, and it lets one more through. -/
theorem filter_not_perm {p : Text → Bool} {before rest wanted : List Text} {extra : Text}
    (part : wanted.Sublist rest) (passes : p extra = true) :
    ¬ ((before ++ extra :: rest).filter p).Perm wanted := by
  intro same
  have all : ∀ line ∈ wanted, p line = true := fun line listed =>
    (List.mem_filter.mp (same.mem_iff.mpr listed)).2
  have fewer : wanted.length ≤ (rest.filter p).length := by
    have filtered := (part.filter p).length_le
    rwa [List.filter_eq_self.mpr all] at filtered
  have equal := same.length_eq
  rw [List.filter_append, List.filter_cons_of_pos passes, List.length_append,
    List.length_cons] at equal
  omega

theorem highLoad_not_exact (l : Listing) :
    ¬ (highLoadQueues l).Perm
      ((l.queues.filter fun q => threshold < q.messages).flatMap fun q => lines (row q)) := by
  rw [highLoadQueues_eq, records_split]
  refine filter_not_perm (List.filter_sublist.flatMap _) ?_
  rw [header_exceeds.1, header_exceeds.2, Bool.and_self]

/-- Whatever the queues are, the report is not exact. -/
theorem monitor_never_exact (l : Listing) : ¬ Exact l := by
  intro law
  have listed := law.highLoad
  rw [monitor_eq_found, Report.highLoad] at listed
  exact highLoad_not_exact l listed

theorem idle_queue_reported : ¬ ∀ l : Listing, Exact l := by
  intro all
  have law := all ⟨"60.0".toList, "/".toList, [⟨"orders".toList, 0, 1, "running".toList⟩]⟩
  have empty := law.allEmpty.mpr (by decide)
  rw [monitor_eq_found] at empty
  cases empty

end Header

section Rows

theorem fields_row {q : Queue} (name : Word q.name) :
    fields (row q) = q.name :: Nat.toDigits 10 q.messages :: Nat.toDigits 10 q.consumers ::
      fields q.state := by
  have tab : isBlank '\t' = true := rfl
  rw [row, fields_append_blank name tab, fields_append_blank (word_toDigits _) tab,
    fields_append_blank (word_toDigits _) tab]

theorem exceeds_row {q : Queue} (name : Word q.name) (bound : Nat) :
    exceeds bound (second (row q)) = decide (bound < q.messages) := by
  rw [second, fields_row name]
  exact exceeds_toDigits bound q.messages

theorem isZero_row {q : Queue} (name : Word q.name) :
    isZero (third (row q)) = decide (q.consumers = 0) := by
  rw [third, fields_row name]
  exact isZero_toDigits q.consumers

structure Plain (l : Listing) : Prop where
  timeout : Word l.timeout
  names : ∀ q ∈ l.queues, Word q.name
  unbroken : ∀ line ∈ output l, '\n' ∉ line

theorem Plain.records {l : Listing} (plain : Plain l) : records l = output l := by
  have single : ∀ line ∈ output l, lines line = [line] := fun line listed =>
    List.splitOn_eq_singleton (plain.unbroken line listed)
  rw [QueueMonitor.records, List.flatMap_congr single, List.flatMap_singleton']

theorem second_timeoutLine {l : Listing} (word : Word l.timeout) :
    second (timeoutLine l) = some l.timeout ∧ third (timeoutLine l) = some "seconds".toList := by
  have split : timeoutLine l =
      "Timeout:".toList ++
        ' ' :: (l.timeout ++ ' ' :: ("seconds".toList ++ ' ' :: "...".toList)) := rfl
  rw [second, third, split, fields_append_blank (word_of_all (by decide) rfl) rfl,
    fields_append_blank word rfl, fields_append_blank (word_of_all (by decide) rfl) rfl]
  simp only [List.getElem?_cons_succ, List.getElem?_cons_zero, and_self]

theorem second_listingLine (l : Listing) :
    second (listingLine l) = some "queues".toList ∧ third (listingLine l) = some "for".toList := by
  have split : listingLine l = "Listing".toList ++
      ' ' :: ("queues".toList ++ ' ' :: ("for".toList ++
      ' ' :: ("vhost ".toList ++ (l.vhost ++ " ...".toList)))) := rfl
  rw [second, third, split, fields_append_blank (word_of_all (by decide) rfl) rfl,
    fields_append_blank (word_of_all (by decide) rfl) rfl,
    fields_append_blank (word_of_all (by decide) rfl) rfl]
  simp only [List.getElem?_cons_succ, List.getElem?_cons_zero, and_self]

theorem filter_output (l : Listing) (p : Text → Bool) {c : Queue → Bool}
    (rows : ∀ q ∈ l.queues, p (row q) = c q) :
    (output l).filter p = (if p (timeoutLine l) then [timeoutLine l] else []) ++
      ((if p (listingLine l) then [listingLine l] else []) ++
        ((if p header then [header] else []) ++ (l.queues.filter c).map row)) := by
  have each : (l.queues.map row).filter p = (l.queues.filter c).map row := by
    rw [List.filter_map]
    exact congrArg (List.map row) (List.filter_congr rows)
  rw [output, List.filter_cons, List.filter_cons, List.filter_cons, each]
  split_ifs <;> rfl

/-- Where names are words, the rows are filtered right: the second warning is exact, and
to the first and to the list of queues only lines that are not about a queue are added. -/
theorem monitor_plain {l : Listing} (plain : Plain l) :
    monitor l = .found
      ((if exceeds 0 (some l.timeout) then [timeoutLine l] else []) ++ listingLine l :: header ::
        (l.queues.filter fun q => 0 < q.messages).map row)
      ((if exceeds threshold (some l.timeout) && exceeds 0 (some l.timeout) then [timeoutLine l]
        else []) ++ listingLine l :: header ::
          (l.queues.filter fun q => threshold < q.messages).map row)
      ((l.queues.filter fun q => q.consumers = 0 ∧ 0 < q.messages).map row) := by
  obtain ⟨timeout₂, timeout₃⟩ := second_timeoutLine plain.timeout
  obtain ⟨listing₂, listing₃⟩ := second_listingLine l
  have busy : ∀ q ∈ l.queues, exceeds 0 (second (row q)) = decide (0 < q.messages) :=
    fun q listed => exceeds_row (plain.names q listed) 0
  have high : ∀ q ∈ l.queues, (exceeds threshold (second (row q)) && exceeds 0 (second (row q))) =
      decide (threshold < q.messages) := by
    intro q listed
    rw [exceeds_row (plain.names q listed), exceeds_row (plain.names q listed), ← Bool.decide_and]
    exact decide_eq_decide.mpr (and_iff_left_of_imp fun above => Nat.zero_lt_of_lt above)
  have idle : ∀ q ∈ l.queues, (isZero (third (row q)) && exceeds 0 (second (row q))) =
      decide (q.consumers = 0 ∧ 0 < q.messages) := by
    intro q listed
    rw [exceeds_row (plain.names q listed), isZero_row (plain.names q listed), ← Bool.decide_and]
  have words : exceeds 0 (some "queues".toList) = true ∧
      exceeds threshold (some "queues".toList) = true ∧ isZero (some "seconds".toList) = false ∧
      isZero (some "for".toList) = false ∧ isZero (third header) = false := by decide
  obtain ⟨queues₀, queuesHigh, seconds, forVhost, consumers⟩ := words
  rw [monitor_eq_found, queuesWithMessages_eq, highLoadQueues_eq, noConsumerQueues_eq,
    plain.records, filter_output l _ busy, filter_output l _ high, filter_output l _ idle]
  simp only [timeout₂, timeout₃, listing₂, listing₃, queues₀, queuesHigh, seconds, forVhost,
    consumers, header_exceeds.1, header_exceeds.2, Bool.false_and, Bool.and_self, if_true,
    Bool.false_eq_true, if_false, List.nil_append, List.singleton_append]

def idleOrders : Listing :=
  ⟨"60.0".toList, "/".toList, [⟨"orders".toList, 1500, 0, "running".toList⟩]⟩

theorem idleOrders_reported :
    ∃ busy high, monitor idleOrders = .found busy high (idleOrders.queues.map row) := by
  have names : ∀ q ∈ idleOrders.queues, Word q.name :=
    List.forall_mem_singleton.mpr (word_of_all (by decide) rfl)
  have unbroken : ∀ line ∈ output idleOrders, '\n' ∉ line := by decide
  exact ⟨_, _, monitor_plain ⟨word_of_all (by decide) rfl, names, unbroken⟩⟩

end Rows

end LempStack.QueueMonitor
