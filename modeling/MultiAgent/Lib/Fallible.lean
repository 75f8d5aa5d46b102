import Mathlib.Data.List.Basic
import Mathlib.Data.List.Forall2

/-!
# Computations that may raise

Inversion rules for `Except` : a sequence of steps succeeds exactly when each of its
steps does (`bind_eq_ok`), a traversal of a list exactly when it succeeds at every
element (`mapM_eq_ok`, `forM_eq_ok`), and a check exactly when its condition does not
raise (`raiseIf_eq_ok`). `Avoids e x` says that `x` does not raise `e`, which a sequence of
steps does not if none of them does (`avoids_bind`).
-/

namespace MultiAgent

namespace Fallible

universe u v

variable {ε : Type u} {α β : Type v}

@[simp] theorem ok_bind (a : α) (f : α → Except ε β) : (Except.ok a >>= f) = f a :=
  rfl

/-- A sequence succeeds exactly when its first step does and the rest does after it. -/
theorem bind_eq_ok {x : Except ε α} {f : α → Except ε β} {r : β} :
    (x >>= f) = .ok r ↔ ∃ a, x = .ok a ∧ f a = .ok r := by
  cases x with
  | error e => exact ⟨fun h => (nomatch h), fun ⟨_, h, _⟩ => (nomatch h)⟩
  | ok a => exact ⟨fun h => ⟨a, rfl, h⟩, fun ⟨_, h, h'⟩ => Except.ok.inj h ▸ h'⟩

theorem map_map {γ : Type*} (f : α → β) (g : β → γ) (x : Except ε α) :
    (x.map f).map g = x.map fun a => g (f a) := by
  cases x <;> rfl

/-- Raise `e` where the condition holds. -/
def raiseIf (e : ε) (c : Bool) : Except ε Unit :=
  if c then .error e else .ok ()

theorem raiseIf_eq_ok {e : ε} {c : Bool} {u : Unit} : raiseIf e c = .ok u ↔ c = false := by
  cases c <;> simp [raiseIf]

/-- A traversal succeeds exactly when it does so at every element. -/
theorem mapM_eq_ok {f : α → Except ε β} : ∀ {l : List α} {r : List β},
    l.mapM f = .ok r ↔ List.Forall₂ (fun a b => f a = .ok b) l r
  | [], r => by
    rw [List.mapM_nil, List.forall₂_nil_left_iff]
    exact ⟨fun h => (Except.ok.inj h).symm, fun h => h ▸ rfl⟩
  | a :: l, r => by
    rw [List.mapM_cons, bind_eq_ok, List.forall₂_cons_left_iff]
    constructor
    · rintro ⟨b, hb, h⟩
      obtain ⟨bs, hbs, hr⟩ := bind_eq_ok.1 h
      exact ⟨b, bs, hb, mapM_eq_ok.1 hbs, (Except.ok.inj hr).symm⟩
    · rintro ⟨b, bs, hb, hbs, rfl⟩
      exact ⟨b, hb, bind_eq_ok.2 ⟨bs, mapM_eq_ok.2 hbs, rfl⟩⟩

/-- In lists that agree element by element each element has a partner. -/
theorem exists_of_forall₂ {α β : Type*} {R : α → β → Prop} {l : List α} {r : List β}
    (h : List.Forall₂ R l r) {a : α} (ha : a ∈ l) : ∃ b ∈ r, R a b := by
  induction h with
  | nil => cases ha
  | @cons a' b l r hab _ ih =>
    rcases List.mem_cons.mp ha with rfl | ha
    · exact ⟨b, List.mem_cons_self, hab⟩
    · obtain ⟨c, hc, hac⟩ := ih ha
      exact ⟨c, List.mem_cons_of_mem b hc, hac⟩

/-- A traversal succeeds if it does so at every element, and keeps what its steps keep. -/
theorem exists_mapM_of_forall₂ {γ : Type*} {f : α → Except ε β} {R : γ → α → Prop}
    {S : γ → β → Prop} {l : List γ} {m : List α} (h : List.Forall₂ R l m)
    (hf : ∀ c ∈ l, ∀ a, R c a → ∃ b, f a = .ok b ∧ S c b) :
    ∃ r, m.mapM f = .ok r ∧ List.Forall₂ S l r := by
  induction h with
  | nil => exact ⟨[], rfl, .nil⟩
  | @cons c a l m hca _ ih =>
    obtain ⟨b, hb, hcb⟩ := hf c List.mem_cons_self a hca
    obtain ⟨r, hr, hlr⟩ := ih fun c' hc' => hf c' (List.mem_cons_of_mem c hc')
    exact ⟨b :: r, by rw [List.mapM_cons, hb, hr]; rfl, .cons hcb hlr⟩

/-- What a traversal returns comes from the elements. -/
theorem exists_of_mapM {f : α → Except ε β} {l : List α} {r : List β} (h : l.mapM f = .ok r)
    {b : β} (hb : b ∈ r) : ∃ a ∈ l, f a = .ok b :=
  exists_of_forall₂ (mapM_eq_ok.1 h).flip hb

/-- A traversal returns exactly when it does so at every element. -/
theorem exists_mapM_eq_ok {f : α → Except ε β} {l : List α} :
    (∃ r, l.mapM f = .ok r) ↔ ∀ a ∈ l, ∃ b, f a = .ok b := by
  constructor
  · rintro ⟨r, h⟩ a ha
    obtain ⟨b, -, hb⟩ := exists_of_forall₂ (mapM_eq_ok.1 h) ha
    exact ⟨b, hb⟩
  · intro h
    obtain ⟨r, hr, -⟩ := exists_mapM_of_forall₂ (S := fun _ _ => True)
      (List.forall₂_same.mpr fun a _ => rfl : List.Forall₂ Eq l l) fun a ha a' haa' => by
        obtain ⟨b, hb⟩ := h a ha
        exact ⟨b, haa' ▸ hb, trivial⟩
    exact ⟨r, hr⟩

/-- A traversal that undoes an encoding of the first part of a list. -/
theorem mapM_encoded_append_eq_ok {γ : Type*} {f : α → Except ε β} {encode : γ → α} {g : γ → β}
    (hf : ∀ c, f (encode c) = .ok (g c)) {m : List α} : ∀ {l : List γ} {r : List β},
    (l.map encode ++ m).mapM f = .ok r ↔ ∃ s, m.mapM f = .ok s ∧ l.map g ++ s = r
  | [], r => ⟨fun h => ⟨r, h, rfl⟩, fun ⟨_, h, he⟩ => he ▸ h⟩
  | c :: l, r => by
    rw [List.map_cons, List.cons_append, List.mapM_cons, hf c, bind_eq_ok]
    constructor
    · rintro ⟨b, hb, h⟩
      obtain ⟨bs, hbs, hr⟩ := bind_eq_ok.1 h
      obtain ⟨s, hs, rfl⟩ := (mapM_encoded_append_eq_ok hf).mp hbs
      obtain rfl := Except.ok.inj hb
      exact ⟨s, hs, Except.ok.inj hr⟩
    · rintro ⟨s, hs, rfl⟩
      exact ⟨g c, rfl, bind_eq_ok.2 ⟨_, (mapM_encoded_append_eq_ok hf).mpr ⟨s, hs, rfl⟩, rfl⟩⟩

theorem flatMapM_cons_eq_ok {f : α → Except ε (List β)} {a : α} {l : List α} {r : List β} :
    (a :: l).flatMapM f = .ok r ↔ ∃ s t, f a = .ok s ∧ l.flatMapM f = .ok t ∧ s ++ t = r := by
  rw [List.flatMapM_cons]
  constructor
  · intro h
    obtain ⟨s, hs, h⟩ := bind_eq_ok.1 h
    obtain ⟨t, ht, h⟩ := bind_eq_ok.1 h
    exact ⟨s, t, hs, ht, Except.ok.inj h⟩
  · rintro ⟨s, t, hs, ht, rfl⟩
    exact bind_eq_ok.2 ⟨s, hs, bind_eq_ok.2 ⟨t, ht, rfl⟩⟩

/-- A loop of checks passes exactly when each of them does. -/
theorem forM_eq_ok {α : Type*} {f : α → Except ε Unit} : ∀ {l : List α} {u : Unit},
    l.forM f = .ok u ↔ ∀ a ∈ l, f a = .ok ()
  | [], u => by
    rw [List.forM_eq_forM, List.forM_nil]
    exact ⟨fun _ _ ha => absurd ha List.not_mem_nil, fun _ => rfl⟩
  | a :: l, u => by
    rw [List.forM_eq_forM, List.forM_cons, bind_eq_ok, List.forall_mem_cons]
    constructor
    · rintro ⟨_, ha, hl⟩
      exact ⟨ha, forM_eq_ok.mp hl⟩
    · rintro ⟨ha, hl⟩
      exact ⟨(), ha, forM_eq_ok.mpr hl⟩

/-! ## What is never raised -/

/-- The computation does not raise `e`. -/
def Avoids (e : ε) (x : Except ε α) : Prop :=
  x ≠ .error e

@[simp] theorem avoids_ok (e : ε) (a : α) : Avoids e (.ok a : Except ε α) :=
  nofun

@[simp] theorem avoids_pure (e : ε) (a : α) : Avoids e (pure a : Except ε α) :=
  nofun

@[simp] theorem avoids_error {e e' : ε} : Avoids e (.error e' : Except ε α) ↔ e' ≠ e :=
  by
  unfold Avoids
  rw [ne_eq, Except.error.injEq]

/-- A sequence does not raise what none of its steps raises. -/
theorem avoids_bind {e : ε} {x : Except ε α} {f : α → Except ε β} :
    Avoids e (x >>= f) ↔ Avoids e x ∧ ∀ a, x = .ok a → Avoids e (f a) := by
  cases x with
  | error e' =>
    change Avoids e (.error e' : Except ε β) ↔ _
    rw [avoids_error, avoids_error]
    exact ⟨fun h => ⟨h, nofun⟩, fun h => h.1⟩
  | ok a => exact ⟨fun h => ⟨nofun, fun _ ha => Except.ok.inj ha ▸ h⟩, fun h => h.2 a rfl⟩

theorem Avoids.bind {e : ε} {x : Except ε α} {f : α → Except ε β} (hx : Avoids e x)
    (hf : ∀ a, Avoids e (f a)) : Avoids e (x >>= f) :=
  avoids_bind.mpr ⟨hx, fun a _ => hf a⟩

@[simp] theorem avoids_map {e : ε} {x : Except ε α} {f : α → β} :
    Avoids e (f <$> x) ↔ Avoids e x := by
  cases x with
  | error e' =>
    change Avoids e (.error e' : Except ε β) ↔ _
    rw [avoids_error, avoids_error]
  | ok a => exact ⟨nofun, nofun⟩

theorem avoids_raiseIf {e e' : ε} {c : Bool} (h : e' ≠ e) : Avoids e (raiseIf e' c) := by
  cases c with
  | false => exact nofun
  | true => exact fun he => h (Except.error.inj he)

theorem avoids_mapM {e : ε} {f : α → Except ε β} :
    ∀ {l : List α}, (∀ a ∈ l, Avoids e (f a)) → Avoids e (l.mapM f)
  | [], _ => nofun
  | a :: l, hf => by
    rw [List.mapM_cons]
    exact (hf a List.mem_cons_self).bind fun b =>
      (avoids_mapM fun a' ha' => hf a' (List.mem_cons_of_mem a ha')).bind fun bs => avoids_pure e _

theorem avoids_foldlM {e : ε} {f : β → α → Except ε β} :
    ∀ {l : List α}, (∀ a ∈ l, ∀ b, Avoids e (f b a)) → ∀ b, Avoids e (l.foldlM f b)
  | [], _, b => nofun
  | a :: l, hf, b => by
    rw [List.foldlM_cons]
    exact (hf a List.mem_cons_self b).bind
      (avoids_foldlM fun a' ha' => hf a' (List.mem_cons_of_mem a ha'))

theorem avoids_forM {α : Type*} {e : ε} {f : α → Except ε Unit} :
    ∀ {l : List α}, (∀ a ∈ l, Avoids e (f a)) → Avoids e (l.forM f)
  | [], _ => nofun
  | a :: l, hf => by
    rw [List.forM_eq_forM, List.forM_cons]
    exact (hf a List.mem_cons_self).bind fun _ =>
      avoids_forM fun a' ha' => hf a' (List.mem_cons_of_mem a ha')

end Fallible

end MultiAgent
