/-!
# Runs

A run feeds events to a step function, one after the other. Its log holds what the events leave
behind; what an event leaves behind is read off the state that it meets.
-/

namespace AgentBroker.Run

variable {σ ε α : Type}

/-- The state behind a run. -/
def last (step : σ → ε → σ) (s : σ) (events : List ε) : σ := events.foldl step s

/-- What the events of a run leave behind, oldest first. -/
def log (step : σ → ε → σ) (leave : σ → ε → List α) : σ → List ε → List α
  | _, [] => []
  | s, e :: rest => leave s e ++ log step leave (step s e) rest

variable {step : σ → ε → σ} {leave : σ → ε → List α}

@[simp] theorem last_nil (s : σ) : last step s [] = s := rfl

@[simp] theorem last_cons (s : σ) (e : ε) (rest : List ε) :
    last step s (e :: rest) = last step (step s e) rest := rfl

theorem last_append (s : σ) (xs ys : List ε) :
    last step s (xs ++ ys) = last step (last step s xs) ys :=
  List.foldl_append

theorem last_concat (s : σ) (xs : List ε) (e : ε) :
    last step s (xs ++ [e]) = step (last step s xs) e := by
  rw [last_append]
  rfl

theorem last_induction {P : σ → Prop} (keep : ∀ s e, P s → P (step s e)) (s : σ) (hs : P s)
    (events : List ε) : P (last step s events) := by
  induction events generalizing s with
  | nil => exact hs
  | cons e rest ih => exact ih (step s e) (keep s e hs)

theorem log_append (s : σ) (xs ys : List ε) :
    log step leave s (xs ++ ys) =
      log step leave s xs ++ log step leave (last step s xs) ys := by
  induction xs generalizing s with
  | nil => rfl
  | cons e rest ih =>
    rw [List.cons_append, log, log, ih, List.append_assoc]
    rfl

theorem log_concat (s : σ) (xs : List ε) (e : ε) :
    log step leave s (xs ++ [e]) = log step leave s xs ++ leave (last step s xs) e := by
  rw [log_append]
  simp [log]

theorem exists_of_mem_log {s : σ} {events : List ε} {a : α} (h : a ∈ log step leave s events) :
    ∃ before e after, events = before ++ e :: after ∧ a ∈ leave (last step s before) e := by
  induction events generalizing s with
  | nil => cases h
  | cons e rest ih =>
    rcases List.mem_append.mp h with here | later
    · exact ⟨[], e, rest, rfl, here⟩
    · obtain ⟨before, e', after, split, mem⟩ := ih later
      exact ⟨e :: before, e', after, congrArg (e :: ·) split, mem⟩

theorem exists_of_log_eq_append (single : ∀ s e, (leave s e).length ≤ 1) {s : σ} {events : List ε}
    {xs ys : List α} {a : α} (h : log step leave s events = xs ++ a :: ys) :
    ∃ before e after, events = before ++ e :: after ∧ log step leave s before = xs ∧
      leave (last step s before) e = [a] := by
  induction events generalizing s xs with
  | nil => cases xs <;> cases h
  | cons e rest ih =>
    rw [log] at h
    have short := single s e
    cases left : leave s e with
    | nil =>
      rw [left] at h
      obtain ⟨before, e', after, rfl, front, here⟩ := ih h
      exact ⟨e :: before, e', after, rfl, by rw [log, left, front]; rfl, here⟩
    | cons x more =>
      rw [left, List.length_cons] at short
      cases List.eq_nil_of_length_eq_zero (Nat.le_zero.mp (Nat.le_of_succ_le_succ short))
      rw [left] at h
      cases xs with
      | nil =>
        cases h
        exact ⟨[], e, rest, rfl, rfl, left⟩
      | cons x' xs =>
        obtain ⟨rfl, tail⟩ := List.cons_eq_cons.mp h
        obtain ⟨before, e', after, rfl, front, here⟩ := ih tail
        exact ⟨e :: before, e', after, rfl, by rw [log, left, front]; rfl, here⟩

theorem log_congr {leave' : σ → ε → List α} (s : σ) (events : List ε)
    (h : ∀ before e after, events = before ++ e :: after →
      leave (last step s before) e = leave' (last step s before) e) :
    log step leave s events = log step leave' s events := by
  induction events generalizing s with
  | nil => rfl
  | cons e rest ih =>
    have head : leave s e = leave' s e := h [] e rest rfl
    have tail := ih (step s e) fun before e' after split => by
      simpa using h (e :: before) e' after (by rw [split]; rfl)
    rw [log, log, head, tail]

theorem log_eq_nil (s : σ) (events : List ε)
    (h : ∀ before e after, events = before ++ e :: after → leave (last step s before) e = []) :
    log step leave s events = [] := by
  have silent (t : σ) (rest : List ε) : log step (fun _ _ => ([] : List α)) t rest = [] := by
    induction rest generalizing t with
    | nil => rfl
    | cons e rest ih => exact ih (step t e)
  have same : log step leave s events = log step (fun _ _ => []) s events := log_congr s events h
  rw [same, silent]

theorem counter_last {f : σ → Nat} {p : α → Bool}
    (h : ∀ s e, f (step s e) = f s + (leave s e).countP p) (s : σ) (events : List ε) :
    f (last step s events) = f s + (log step leave s events).countP p := by
  induction events generalizing s with
  | nil => rfl
  | cons e rest ih => rw [last_cons, ih, h, log, List.countP_append, Nat.add_assoc]

/-- What every event changes by the things that it leaves behind, a run changes by its log. -/
theorem foldl_last {β : Type} {f : σ → β} {g : β → α → β}
    (h : ∀ s e, f (step s e) = (leave s e).foldl g (f s)) (s : σ) (events : List ε) :
    f (last step s events) = (log step leave s events).foldl g (f s) := by
  induction events generalizing s with
  | nil => rfl
  | cons e rest ih => rw [last_cons, ih, h, log, List.foldl_append]

theorem log_map {δ : Type} (h : δ → ε) (s : σ) (ds : List δ) :
    log step leave s (ds.map h) =
      log (fun s d => step s (h d)) (fun s d => leave s (h d)) s ds := by
  induction ds generalizing s with
  | nil => rfl
  | cons d ds ih => rw [List.map_cons, log, log, ih]

section

variable (comm : ∀ s e e', step (step s e) e' = step (step s e') e)
  (idem : ∀ s e, step (step s e) e = step s e)
include comm idem

theorem last_absorb {e : ε} {events : List ε} (mem : e ∈ events) (s : σ) :
    last step (step s e) events = last step s events := by
  induction events generalizing s with
  | nil => cases mem
  | cons e' rest ih =>
    rw [last_cons, last_cons]
    rcases List.mem_cons.mp mem with rfl | later
    · rw [idem]
    · rw [comm, ih later]

theorem last_absorb_all {before events : List ε} (subset : before ⊆ events) (s : σ) :
    last step (last step s before) events = last step s events := by
  induction before generalizing s with
  | nil => rfl
  | cons e rest ih =>
    obtain ⟨mem, subset⟩ := List.cons_subset.mp subset
    rw [last_cons, ih subset, last_absorb comm idem mem]

/-- Behind steps that commute, and that do nothing when they are repeated, it only counts which
events there were. -/
theorem last_eq_of_mem_iff {xs ys : List ε} (same : ∀ e, e ∈ xs ↔ e ∈ ys) (s : σ) :
    last step s xs = last step s ys := by
  have perm : last step s (xs ++ ys) = last step s (ys ++ xs) :=
    List.perm_append_comm.foldl_eq' (fun e _ e' _ t => comm t e e') s
  rw [last_append, last_append] at perm
  rw [← last_absorb_all comm idem (fun e => (same e).mpr) s, ← perm,
    last_absorb_all comm idem fun e => (same e).mp]

end

/-- Who sees only a part of the events sees the run of this part, when no other event changes what
there is to see. -/
theorem last_project {τ δ : Type} {step' : τ → δ → τ} {leave' : τ → δ → List α}
    {own : ε → Option δ} {R : σ → τ → Prop}
    (mine : ∀ s t e d, own e = some d → R s t → R (step s e) (step' t d) ∧ leave s e = leave' t d)
    (others : ∀ s t e, own e = none → R s t → R (step s e) t ∧ leave s e = [])
    {s : σ} {t : τ} (h : R s t) (events : List ε) :
    R (last step s events) (last step' t (events.filterMap own)) ∧
    log step leave s events = log step' leave' t (events.filterMap own) := by
  induction events generalizing s t with
  | nil => exact ⟨h, rfl⟩
  | cons e rest ih =>
    rw [last_cons, log]
    cases owned : own e with
    | none =>
      obtain ⟨kept, silent⟩ := others s t e owned h
      rw [List.filterMap_cons_none owned, silent]
      exact ih kept
    | some d =>
      obtain ⟨kept, same⟩ := mine s t e d owned h
      rw [List.filterMap_cons_some owned, log, last_cons, same, (ih kept).2]
      exact ⟨(ih kept).1, rfl⟩

section

variable {κ : Type} [DecidableEq κ] {owner : ε → κ}

def share (owner : ε → κ) (leave : σ → ε → List α) (k : κ) (s : σ) (e : ε) : List α :=
  if owner e = k then leave s e else []

theorem count_log_share [DecidableEq α] (k : κ) (a : α) (s : σ) (events : List ε) :
    (log step (fun s e => (leave s e).map (owner e, ·)) s events).count (k, a) =
      (log step (share owner leave k) s events).count a := by
  induction events generalizing s with
  | nil => rfl
  | cons e rest ih =>
    rw [log, log, List.count_append, List.count_append, ih, share]
    congr 1
    by_cases own : owner e = k
    · rw [if_pos own, own, List.count, List.countP_map]
      refine List.countP_congr fun a' _ => ?_
      simp
    · rw [if_neg own, List.count_nil, List.count_eq_zero]
      intro mem
      obtain ⟨a', -, same⟩ := List.mem_map.mp mem
      exact own (Prod.mk.inj same).1

/-- Runs in which every owner leaves the same behind leave the same behind, up to the order of the
owners. -/
theorem log_perm {s : σ} {xs ys : List ε}
    (h : ∀ k, log step (share owner leave k) s xs = log step (share owner leave k) s ys) :
    (log step leave s xs).Perm (log step leave s ys) := by
  classical
  -- Tagged with its owner, all that is left behind is counted share by share.
  have untag (s : σ) (events : List ε) : log step leave s events =
      (log step (fun s e => (leave s e).map (owner e, ·)) s events).map (·.2) := by
    induction events generalizing s with
    | nil => rfl
    | cons e rest ih =>
      rw [log, log, List.map_append, List.map_map, ← ih]
      congr 1
      exact (List.map_id _).symm
  rw [untag, untag]
  refine List.Perm.map _ (List.perm_iff_count.mpr ?_)
  rintro ⟨k, a⟩
  rw [count_log_share, count_log_share, h]

end

end AgentBroker.Run
