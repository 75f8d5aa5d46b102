import Mathlib.Data.List.TakeWhile
import Mathlib.Logic.Function.Basic
import Mathlib.Order.Basic

/-!
# Texts that are read in one way

A code gives a text to every value. It is a prefix code if from a text that begins with a coded
value the value and the rest are known (`PrefixCode`), as when a decoder reads the value off
(`prefixCode_of_decode`). A code without brackets around it is read up to a delimiter only
(`Reads`), as are tokens, which contain no delimiter (`token_inj`).

Codewords in a row up to an end mark are read in one way (`PrefixCode.flatMap_inj`), and so are the
elements of a separated list up to its closing bracket (`separated_inj`).
-/

namespace MultiAgent

variable {α β : Type*}

/-- A text that begins with a coded value determines the value and the rest. -/
def PrefixCode (code : α → List β) : Prop :=
  ∀ a b s t, code a ++ s = code b ++ t → a = b ∧ s = t

theorem prefixCode_of_decode {code : α → List β} {decode : List β → Option (α × List β)}
    (h : ∀ a s, decode (code a ++ s) = some (a, s)) : PrefixCode code := by
  intro a b s t heq
  have hdecode := congrArg decode heq
  rw [h, h] at hdecode
  exact Prod.mk.inj (Option.some.inj hdecode)

/-- Codewords of which none begins with the end mark are read up to it. -/
theorem PrefixCode.flatMap_inj {code : α → List β} (h : PrefixCode code) {q : β}
    (hend : ∀ a s t, code a ++ s ≠ q :: t) :
    ∀ {l m : List α} {s t : List β},
      l.flatMap code ++ q :: s = m.flatMap code ++ q :: t → l = m ∧ s = t
  | [], [], _, _, heq => ⟨rfl, (List.cons.inj heq).2⟩
  | [], b :: m, s, t, heq => by
    rw [List.flatMap_cons, List.append_assoc] at heq
    exact absurd heq.symm (hend b _ _)
  | a :: l, [], s, t, heq => by
    rw [List.flatMap_cons, List.append_assoc] at heq
    exact absurd heq (hend a _ _)
  | a :: l, b :: m, s, t, heq => by
    rw [List.flatMap_cons, List.flatMap_cons, List.append_assoc, List.append_assoc] at heq
    obtain ⟨rfl, hrest⟩ := h _ _ _ _ heq
    obtain ⟨rfl, hst⟩ := h.flatMap_inj hend hrest
    exact ⟨rfl, hst⟩

/-! ## Texts up to a delimiter -/

/-- The text is empty or begins with a delimiter. -/
def Delimited (stop : β → Bool) (s : List β) : Prop :=
  ∀ c ∈ s.head?, stop c = true

theorem delimited_cons {stop : β → Bool} {c : β} (h : stop c = true) (s : List β) :
    Delimited stop (c :: s) := by
  intro c' hc'
  obtain rfl := Option.some.inj hc'
  exact h

/-- The value is read off from what begins with its text, up to a delimiter. -/
def ReadsAt (stop : β → Bool) (code : α → List β) (a : α) : Prop :=
  ∀ b s t, Delimited stop s → Delimited stop t → code a ++ s = code b ++ t → a = b ∧ s = t

/-- Every value is. -/
def Reads (stop : β → Bool) (code : α → List β) : Prop :=
  ∀ a, ReadsAt stop code a

/-- A text without delimiters ends at the first delimiter. -/
theorem token_inj {stop : β → Bool} : ∀ {x y s t : List β}, (∀ c ∈ x, stop c = false) →
    (∀ c ∈ y, stop c = false) → Delimited stop s → Delimited stop t → x ++ s = y ++ t →
      x = y ∧ s = t
  | [], [], _, _, _, _, _, _, heq => ⟨rfl, heq⟩
  | [], d :: y, s, t, _, hy, hs, _, heq => by
    have hd := hs d (by rw [List.nil_append] at heq; rw [heq]; rfl)
    rw [hy d List.mem_cons_self] at hd
    cases hd
  | c :: x, [], s, t, hx, _, _, ht, heq => by
    have hc := ht c (by rw [List.nil_append] at heq; rw [← heq]; rfl)
    rw [hx c List.mem_cons_self] at hc
    cases hc
  | c :: x, d :: y, s, t, hx, hy, hs, ht, heq => by
    rw [List.forall_mem_cons] at hx hy
    obtain ⟨rfl, hrest⟩ := List.cons.inj heq
    obtain ⟨rfl, hst⟩ := token_inj hx.2 hy.2 hs ht hrest
    exact ⟨rfl, hst⟩

/-! ## Separated lists -/

/-- The texts with the separator between them. -/
def separated (sep : List β) : List (List β) → List β
  | [] => []
  | x :: l => x ++ l.flatMap (sep ++ ·)

section Separated

variable {stop : β → Bool} {code : α → List β} {c close : β} {sep : List β}

/-- After an element there is the separator or the bracket. -/
theorem delimited_rest (hc : stop c = true) (hclose : stop close = true) (l : List (List β))
    (s : List β) : Delimited stop (l.flatMap (c :: sep ++ ·) ++ close :: s) := by
  cases l with
  | nil => exact delimited_cons hclose s
  | cons x l => exact delimited_cons hc _

theorem rest_inj (hc : stop c = true) (hclose : stop close = true) (hne : c ≠ close) :
    ∀ {l m : List α} {s t : List β}, (∀ a ∈ l, ReadsAt stop code a) →
      (l.map code).flatMap (c :: sep ++ ·) ++ close :: s =
          (m.map code).flatMap (c :: sep ++ ·) ++ close :: t →
        l = m ∧ s = t
  | [], [], _, _, _, heq => ⟨rfl, (List.cons.inj heq).2⟩
  | [], _ :: _, _, _, _, heq => absurd (List.cons.inj heq).1.symm hne
  | _ :: _, [], _, _, _, heq => absurd (List.cons.inj heq).1 hne
  | a :: l, b :: m, s, t, hl, heq => by
    rw [List.forall_mem_cons] at hl
    simp only [List.map_cons, List.flatMap_cons, List.cons_append, List.append_assoc] at heq
    have htext := List.append_cancel_left (List.cons.inj heq).2
    obtain ⟨rfl, hrest⟩ := hl.1 b _ _ (delimited_rest hc hclose _ s)
      (delimited_rest hc hclose _ t) htext
    obtain ⟨rfl, hst⟩ := rest_inj hc hclose hne hl.2 hrest
    exact ⟨rfl, hst⟩

/-- The elements of a separated list are read up to the closing bracket, where the separator and
the bracket are told apart by their first characters and no element begins with the bracket. -/
theorem separated_inj (hc : stop c = true) (hclose : stop close = true) (hne : c ≠ close)
    (hhead : ∀ a s t, code a ++ s ≠ close :: t) :
    ∀ {l m : List α} {s t : List β}, (∀ a ∈ l, ReadsAt stop code a) →
      separated (c :: sep) (l.map code) ++ close :: s =
          separated (c :: sep) (m.map code) ++ close :: t →
        l = m ∧ s = t
  | [], [], _, _, _, heq => ⟨rfl, (List.cons.inj heq).2⟩
  | [], b :: m, s, t, _, heq => by
    rw [List.map_cons, separated, List.append_assoc] at heq
    exact absurd heq.symm (hhead b _ _)
  | a :: l, [], s, t, _, heq => by
    rw [List.map_cons, separated, List.append_assoc] at heq
    exact absurd heq (hhead a _ _)
  | a :: l, b :: m, s, t, hl, heq => by
    rw [List.forall_mem_cons] at hl
    rw [List.map_cons, List.map_cons, separated, separated, List.append_assoc,
      List.append_assoc] at heq
    obtain ⟨rfl, hrest⟩ := hl.1 b _ _ (delimited_rest hc hclose _ s)
      (delimited_rest hc hclose _ t) heq
    obtain ⟨rfl, hst⟩ := rest_inj hc hclose hne hl.2 hrest
    exact ⟨rfl, hst⟩

end Separated

end MultiAgent
