import Mathlib.Data.List.Nodup

/-!
# Logs of requests

A log records requests to keyed parties and what settles them.  A request to a
key is pending from the entry that opens it to the next entry that closes it.
A log is disciplined when no request is opened to a key whose earlier request
is still pending.
-/

namespace BluetoothFormal.Foundation.RequestLog

open List

variable {Entry Key : Type} [DecidableEq Key]

/-- What an entry does to the request of a key. -/
inductive Effect (Key : Type) where
  | opens (key : Key)
  | closes (key : Key)

variable (effect : Entry → Effect Key)

/-- Whether a request to the key is pending after one more entry. -/
def pendingAfter (key : Key) (pending : Bool) (entry : Entry) : Bool :=
  match effect entry with
  | .opens opened => opened = key || pending
  | .closes closed => closed ≠ key && pending

/-- Whether a request to the key is pending at the end of the log. -/
def pending (log : List Entry) (key : Key) : Bool :=
  log.foldl (pendingAfter effect key) false

/-- No request is opened to a key whose earlier request is pending. -/
def Disciplined (log : List Entry) : Prop :=
  ∀ before entry after key, log = before ++ entry :: after → effect entry = .opens key →
    pending effect before key = false

variable {effect}

theorem pending_concat (log : List Entry) (entry : Entry) (key : Key) :
    pending effect (log ++ [entry]) key = pendingAfter effect key (pending effect log key) entry := by
  simp [pending]

theorem disciplined_nil : Disciplined effect [] := by
  intro before entry after key shape
  cases before with
  | nil | cons => cases shape

variable {log : List Entry}

theorem Disciplined.concat (disciplined : Disciplined effect log) {entry : Entry}
    (respects : ∀ key, effect entry = .opens key → pending effect log key = false) :
    Disciplined effect (log ++ [entry]) := by
  intro before opening after key shape opens
  rcases eq_nil_or_concat' after with rfl | ⟨middle, last, rfl⟩
  · obtain ⟨rfl, same⟩ := append_inj' shape rfl
    cases same
    exact respects key opens
  · rw [← cons_append, ← append_assoc] at shape
    obtain ⟨rfl, -⟩ := append_inj' shape rfl
    exact disciplined before opening middle key rfl opens

/-! ## Rounds of requests -/

section Rounds

variable {notice : Key → Entry}

theorem Disciplined.append_opens (disciplined : Disciplined effect log)
    (opens : ∀ key, effect (notice key) = .opens key) {keys : List Key} (distinct : keys.Nodup)
    (idle : ∀ key ∈ keys, pending effect log key = false) :
    Disciplined effect (log ++ keys.map notice) := by
  induction keys generalizing log with
  | nil => simpa using disciplined
  | cons first rest ih =>
    rw [nodup_cons] at distinct
    rw [map_cons, append_cons]
    refine ih (disciplined.concat ?_) distinct.2 ?_
    · intro key opened
      rw [opens, Effect.opens.injEq] at opened
      subst opened
      exact idle first mem_cons_self
    · intro key member
      have other : first ≠ key := fun same => distinct.1 (same ▸ member)
      rw [pending_concat, pendingAfter, opens]
      simp [other, idle key (mem_cons_of_mem _ member)]

theorem pending_append_opens (opens : ∀ key, effect (notice key) = .opens key)
    (log : List Entry) (keys : List Key) (key : Key) :
    pending effect (log ++ keys.map notice) key = true ↔
      key ∈ keys ∨ pending effect log key = true := by
  induction keys generalizing log with
  | nil => simp
  | cons first rest ih =>
    rw [map_cons, append_cons, ih, pending_concat, pendingAfter, opens]
    by_cases same : key = first
    · simp [same]
    · simp [same, Ne.symm same]

theorem Disciplined.append_closes (disciplined : Disciplined effect log)
    (closes : ∀ key, effect (notice key) = .closes key) (keys : List Key) :
    Disciplined effect (log ++ keys.map notice) := by
  induction keys generalizing log with
  | nil => simpa using disciplined
  | cons first rest ih =>
    rw [map_cons, append_cons]
    refine ih (disciplined.concat ?_)
    intro key opened
    rw [closes] at opened
    cases opened

theorem pending_append_closes (closes : ∀ key, effect (notice key) = .closes key)
    (log : List Entry) (keys : List Key) (key : Key) :
    pending effect (log ++ keys.map notice) key = true ↔
      key ∉ keys ∧ pending effect log key = true := by
  induction keys generalizing log with
  | nil => simp
  | cons first rest ih =>
    rw [map_cons, append_cons, ih, pending_concat, pendingAfter, closes]
    by_cases same : key = first
    · simp [same]
    · simp [same, Ne.symm same]

end Rounds

end BluetoothFormal.Foundation.RequestLog
