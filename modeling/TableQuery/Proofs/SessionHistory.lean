import TableQuery.Proofs.Loading
import TableQuery.Session

/-! # Histories of sessions

A session is asked to load texts, to reject conditions or not, and to run queries, in any order. It then holds
the dataset of the last text that could be loaded and the policy that was set last. A text that is not loaded
leaves no trace, at whichever stage it fails, and neither does a query.
-/
namespace TableQuery

def Policy.ofReject (reject : Bool) : Policy := if reject then .reject else .ignore

namespace Session

inductive Call where
  | load (text : String)
  | rejectUnsupported (reject : Bool)
  | run (query : String)
deriving DecidableEq

abbrev Answer := Except String (Option Execution)

def call (s : Session) : Call → Session × Answer
  | .load text =>
    match s.load text with
    | .ok loaded => (loaded, .ok none)
    | .error error => (s, .error error.message)
  | .rejectUnsupported reject => (s.setPolicy (.ofReject reject), .ok none)
  | .run query => (s, ((s.run query).mapError SessionError.message).map some)

def after (s : Session) (calls : List Call) : Session := calls.foldl (fun s c => (s.call c).1) s

def answers (s : Session) : List Call → List Answer
  | [] => []
  | c :: calls => (s.call c).2 :: answers (s.call c).1 calls

def Call.dataset? : Call → Option Dataset
  | load text => (Csv.load text).toOption
  | _ => none

def Call.policy? : Call → Option Policy
  | rejectUnsupported reject => some (.ofReject reject)
  | _ => none

def lastDataset? (calls : List Call) : Option Dataset := (calls.filterMap Call.dataset?).getLast?

def lastPolicy (calls : List Call) : Policy := (calls.filterMap Call.policy?).getLast?.getD .ignore

/-- What a call should answer that comes after other ones. -/
def expected (before : List Call) : Call → Answer
  | .load text => ((Csv.load text).mapError CsvError.message).map fun _ => none
  | .rejectUnsupported _ => .ok none
  | .run query =>
    match lastDataset? before with
    | none => .error "Customer data is not available"
    | some d => ((Query.run (lastPolicy before) query d).mapError QueryError.message).map some

theorem getLast?_filterMap_cons {α β : Type} (f : α → Option β) (x : α) (xs : List α) :
    ((x :: xs).filterMap f).getLast? = (xs.filterMap f).getLast?.or (f x) := by
  cases hx : f x with
  | none => rw [List.filterMap_cons_none hx, Option.or_none]
  | some y =>
    rw [List.filterMap_cons_some hx, List.getLast?_cons]
    cases (xs.filterMap f).getLast? <;> rfl

/-- A call replaces what it brings and keeps the rest. -/
theorem fst_call (s : Session) (c : Call) :
    (s.call c).1 = ⟨c.dataset?.or s.dataset, c.policy?.getD s.policy⟩ := by
  cases c with
  | load text => cases h : Csv.load text <;> simp [call, load, h, Call.dataset?, Call.policy?, Except.map,
      Except.mapError, Except.toOption]
  | rejectUnsupported reject => rfl
  | run query => rfl

theorem after_eq (s : Session) (calls : List Call) : s.after calls =
    ⟨(calls.filterMap Call.dataset?).getLast?.or s.dataset,
      (calls.filterMap Call.policy?).getLast?.getD s.policy⟩ := by
  induction calls generalizing s with
  | nil => rfl
  | cons c calls ih =>
    have hrest : s.after (c :: calls) = (s.call c).1.after calls := rfl
    rw [hrest, ih, fst_call, getLast?_filterMap_cons, getLast?_filterMap_cons, Option.or_assoc]
    cases (calls.filterMap Call.policy?).getLast? <;> rfl

theorem after_new (calls : List Call) : new.after calls = ⟨lastDataset? calls, lastPolicy calls⟩ := by
  rw [after_eq, lastDataset?, lastPolicy]
  exact congrArg (Session.mk · _) Option.or_none

theorem getElem?_answers (s : Session) (calls : List Call) (i : Nat) :
    (s.answers calls)[i]? = calls[i]?.map fun c => ((s.after (calls.take i)).call c).2 := by
  induction calls generalizing s i with
  | nil => rfl
  | cons c calls ih =>
    cases i with
    | zero => rfl
    | succ i => exact ih (s.call c).1 i

/-- What is answered to a query depends on the dataset and on the policy, and not on how they came about. -/
theorem snd_call_after_new (before : List Call) (c : Call) :
    ((new.after before).call c).2 = expected before c := by
  rw [after_new]
  cases c with
  | load text => cases h : Csv.load text <;> simp [call, load, h, expected, Except.map, Except.mapError,
      SessionError.message]
  | rejectUnsupported reject => rfl
  | run query =>
    cases h : lastDataset? before with
    | none => simp [call, run, h, expected, Except.map, Except.mapError, SessionError.message]
    | some d =>
      cases hrun : Query.run (lastPolicy before) query d <;>
        simp [call, run, h, hrun, expected, Except.map, Except.mapError, SessionError.message]

theorem after_append (s : Session) (before later : List Call) :
    s.after (before ++ later) = (s.after before).after later :=
  List.foldl_append

/-- A new session holds, after any calls, the dataset of the last text that could be loaded and the policy that
was set last, and answers accordingly. A text is not loaded if a quote is never closed or a field has no
name; it then leaves the session as it was, as every query does. -/
theorem history_of_calls (calls : List Call) :
    (new.after calls).dataset = lastDataset? calls ∧ (new.after calls).policy = lastPolicy calls ∧
      (∀ i c, calls[i]? = some c → (new.answers calls)[i]? = some (expected (calls.take i) c)) ∧
      (∀ text error, Csv.load text = .error error → new.after (calls ++ [.load text]) = new.after calls ∧
        ((∃ line, error = .unterminatedQuote line) ∨ error = .dataset .emptyColumnName)) ∧
      ∀ query, new.after (calls ++ [.run query]) = new.after calls := by
  have hcall : ∀ c, new.after (calls ++ [c]) = ((new.after calls).call c).1 := fun c =>
    after_append new calls [c]
  refine ⟨by rw [after_new], by rw [after_new], fun i c hc => ?_, fun text error h => ?_, fun query => ?_⟩
  · rw [getElem?_answers, hc, Option.map_some, snd_call_after_new]
  · refine ⟨?_, Csv.load_eq_error h⟩
    rw [hcall, fst_call, Call.dataset?, h]
    rfl
  · exact hcall _

/-- Neither a quote that is not closed nor a field without a name replaces the dataset that was loaded before, and
the policy that was set for it holds on. -/
theorem history_of_calls_failed_loads :
    let calls : List Call := [.run "SELECT a FROM t", .load "a,b\n1,2\n", .rejectUnsupported true,
      .load "c\n\"3\n", .load "c,\n3,4\n", .run "SELECT b FROM t WHERE a > 3"]
    let d : Dataset := ⟨[⟨"a", .integer⟩, ⟨"b", .integer⟩], [0, 1], ["a", "b"], [[.integer 1, .integer 2]]⟩
    new.after calls = ⟨some d, .reject⟩ ∧
      (new.answers calls)[0]? = some (.error "Customer data is not available") ∧
      (new.answers calls)[3]? = some (.error "Unterminated quoted field in record starting on line 2") ∧
      (new.answers calls)[4]? = some (.error "Invalid schema: empty column name") ∧
      (new.answers calls)[5]? = some (.error "Unsupported WHERE clause: a > 3") := by
  intro calls d
  obtain ⟨hdataset, hpolicy, hanswers, -, -⟩ := history_of_calls calls
  have hlast : lastDataset? calls = some d ∧ lastPolicy calls = .reject := by decide +kernel
  refine ⟨congrArg₂ Session.mk (hdataset.trans hlast.1) (hpolicy.trans hlast.2), ?_, ?_, ?_, ?_⟩
  · exact (hanswers 0 _ rfl).trans (by decide +kernel)
  · exact (hanswers 3 _ rfl).trans (by decide +kernel)
  · exact (hanswers 4 _ rfl).trans (by decide +kernel)
  · exact (hanswers 5 _ rfl).trans (by decide +kernel)

end Session
end TableQuery
