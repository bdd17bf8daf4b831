import Mathlib

/-! Consumers of a stream: they take it item by item, may emit something on each item, and may fail.
-/
namespace Bluzing
variable {σ α ο ε : Type*}

abbrev Consumer (σ α ο ε : Type*) := σ → α → Except (σ × ε) (σ × List ο)

structure Fed (σ ο ε : Type*) where
  state : σ
  output : List ο
  failure : Option ε

def Fed.after (output : List ο) (r : Fed σ ο ε) : Fed σ ο ε :=
  { r with output := output ++ r.output }

def Fed.andThen (r : Except (σ × ε) (σ × List ο)) (k : σ → Fed σ ο ε) : Fed σ ο ε :=
  match r with
  | .error (s, e) => ⟨s, [], some e⟩
  | .ok (s, output) => (k s).after output

@[simp] lemma Fed.after_nil (r : Fed σ ο ε) : r.after [] = r := rfl

@[simp] lemma Fed.after_after (a b : List ο) (r : Fed σ ο ε) :
    (r.after b).after a = r.after (a ++ b) := by
  simp [Fed.after]

structure Calls (σ ο ε : Type*) where
  state : σ
  output : List ο
  failures : List (Option ε)

def calls (call : σ → List α → Fed σ ο ε) (s : σ) : List (List α) → Calls σ ο ε
  | [] => ⟨s, [], []⟩
  | xs :: chunks =>
      let first := call s xs
      let others := calls call first.state chunks
      ⟨others.state, first.output ++ others.output, first.failure :: others.failures⟩

lemma calls_concat (call : σ → List α → Fed σ ο ε) (s : σ) (chunks : List (List α))
    (xs : List α) : calls call s (chunks ++ [xs]) =
      ⟨(call (calls call s chunks).state xs).state,
        (calls call s chunks).output ++ (call (calls call s chunks).state xs).output,
        (calls call s chunks).failures ++ [(call (calls call s chunks).state xs).failure]⟩ := by
  induction chunks generalizing s with
  | nil => simp [calls]
  | cons chunk chunks ih => simp [calls, ih]

namespace Consumer
variable (step : Consumer σ α ο ε)

def feed (s : σ) : List α → Fed σ ο ε
  | [] => ⟨s, [], none⟩
  | x :: xs => Fed.andThen (step s x) fun s' => feed s' xs

variable {step} {s : σ} {xs ys : List α}

lemma feed_cons (s : σ) (x : α) (xs : List α) :
    feed step s (x :: xs) = Fed.andThen (step s x) fun s' => feed step s' xs := rfl

lemma feed_ok {x : α} {s' : σ} {output : List ο} (h : step s x = .ok (s', output)) :
    feed step s (x :: xs) = (feed step s' xs).after output := by
  rw [feed_cons, h]
  rfl

lemma feed_error {x : α} {s' : σ} {e : ε} (h : step s x = .error (s', e)) :
    feed step s (x :: xs) = ⟨s', [], some e⟩ := by
  rw [feed_cons, h]
  rfl

lemma feed_append (h : (feed step s xs).failure = none) :
    feed step s (xs ++ ys) =
      (feed step (feed step s xs).state ys).after (feed step s xs).output := by
  induction xs generalizing s with
  | nil => rfl
  | cons x xs ih =>
    cases hx : step s x with
    | error r =>
      rw [feed_error hx] at h
      cases h
    | ok r =>
      rw [feed_ok hx] at h
      rw [List.cons_append, feed_ok hx, feed_ok hx, ih h, Fed.after_after]
      rfl

lemma feed_append_failure {e : ε} (h : (feed step s xs).failure = some e) :
    feed step s (xs ++ ys) = feed step s xs := by
  induction xs generalizing s with
  | nil => cases h
  | cons x xs ih =>
    cases hx : step s x with
    | error r => rw [List.cons_append, feed_error hx, feed_error hx]
    | ok r =>
      rw [feed_ok hx] at h
      rw [List.cons_append, feed_ok hx, feed_ok hx, ih h]

lemma feed_flatten {chunks : List (List α)}
    (h : ∀ f ∈ (calls (feed step) s chunks).failures, f = none) :
    feed step s chunks.flatten =
      ⟨(calls (feed step) s chunks).state, (calls (feed step) s chunks).output, none⟩ := by
  induction chunks generalizing s with
  | nil => rfl
  | cons xs chunks ih =>
    simp only [calls, List.mem_cons, forall_eq_or_imp] at h
    obtain ⟨hfirst, hothers⟩ := h
    rw [List.flatten_cons, feed_append hfirst, ih hothers]
    rfl

lemma calls_failures {chunks : List (List α)} (h : (feed step s chunks.flatten).failure = none) :
    ∀ f ∈ (calls (feed step) s chunks).failures, f = none := by
  induction chunks generalizing s with
  | nil => simp [calls]
  | cons xs chunks ih =>
    rw [List.flatten_cons] at h
    have hfirst : (feed step s xs).failure = none := by
      cases hf : (feed step s xs).failure with
      | none => rfl
      | some e => rwa [feed_append_failure hf, hf] at h
    rw [feed_append hfirst] at h
    simp only [calls, List.mem_cons, forall_eq_or_imp]
    exact ⟨hfirst, ih h⟩

end Consumer

end Bluzing
