import Mathlib.Algebra.Group.Nat.Defs
import Mathlib.Data.List.Infix

/-!
# Streams that arrive in pieces

A socket yields a stream piece by piece: a call asks for some symbols and gets at least one of them,
as long as the stream goes on. A reading is a program of such calls. `Reads` says that it takes a word
off the stream however it arrives; no two such words are a word and its beginning
(`Reads.eq_of_isPrefix`).
`Takes` bounds what is taken off, also by a reading that fails.
-/

/-- A stream: what has not been read, and how many symbols beyond the first each further call finds. -/
structure Feed (β : Type) where
  unread : List β
  found : ℕ → ℕ

/-- A program that reads. -/
abbrev Reading (ε β : Type) : Type → Type := ExceptT ε (StateM (Feed β))

namespace Reading

variable {ε β α γ : Type}

/-- What a reading yields, and the stream afterwards. -/
def on (r : Reading ε β α) (s : Feed β) : Except ε α × Feed β := (ExceptT.run r).run s

/-- A call for at most `n` symbols. -/
def recv (n : ℕ) : Reading ε β (List β) :=
  ExceptT.lift fun s =>
    let k := min n (s.found 0 + 1)
    (s.unread.take k, ⟨s.unread.drop k, fun i => s.found (i + 1)⟩)

@[simp] theorem on_pure (a : α) (s : Feed β) : on (pure a : Reading ε β α) s = (.ok a, s) := rfl

@[simp] theorem on_throw (e : ε) (s : Feed β) : on (throw e : Reading ε β α) s = (.error e, s) := rfl

@[simp] theorem on_recv (n : ℕ) (s : Feed β) : on (recv n : Reading ε β (List β)) s =
    (.ok (s.unread.take (min n (s.found 0 + 1))),
      ⟨s.unread.drop (min n (s.found 0 + 1)), fun i => s.found (i + 1)⟩) := rfl

theorem on_bind (r : Reading ε β α) (f : α → Reading ε β γ) (s : Feed β) :
    on (r >>= f) s = match r.on s with
      | (.ok a, s') => (f a).on s'
      | (.error e, s') => (.error e, s') := by
  unfold on ExceptT.run StateT.run
  simp only [bind, ExceptT.bind, ExceptT.mk, StateT.bind, ExceptT.bindCont]
  cases r s with
  | mk result s' => cases result <;> rfl

theorem on_bind_ok {r : Reading ε β α} {f : α → Reading ε β γ} {s s' : Feed β} {a : α}
    (h : r.on s = (.ok a, s')) : on (r >>= f) s = (f a).on s' := by
  rw [on_bind, h]

/-! ## Receiving a number of symbols -/

/-- Symbols are received until there are `length` of them. -/
def receive (closed : ε) (length : ℕ) (buffer : List β) : Reading ε β (List β) :=
  if _ : length ≤ buffer.length then pure buffer
  else do
    let chunk ← recv (length - buffer.length)
    if _ : chunk.length = 0 then throw closed
    else receive closed length (buffer ++ chunk)
termination_by length - buffer.length
decreasing_by
  rw [List.length_append]
  omega

/-- **However the stream arrives**, it yields the symbols that are missing, unless it ends before. -/
theorem on_receive (closed : ε) (length : ℕ) (buffer : List β) (s : Feed β) :
    ∃ s', (receive closed length buffer).on s =
        (if length - buffer.length ≤ s.unread.length then
          .ok (buffer ++ s.unread.take (length - buffer.length)) else .error closed, s') ∧
      s'.unread = s.unread.drop (length - buffer.length) := by
  induction h : length - buffer.length using Nat.strongRecOn generalizing buffer s with
  | ind n ih =>
    rw [receive]
    by_cases hdone : length ≤ buffer.length
    · obtain rfl : n = 0 := by omega
      rw [dif_pos hdone]
      exact ⟨s, by simp, by simp⟩
    · rw [dif_neg hdone, on_bind_ok (on_recv _ s), h]
      set k := min n (s.found 0 + 1) with hk
      have hk : 0 < k ∧ k ≤ n := by omega
      by_cases hclosed : (s.unread.take k).length = 0
      · have hempty : s.unread = [] := by
          rw [List.length_take] at hclosed
          exact List.eq_nil_of_length_eq_zero (by omega)
        rw [dif_pos hclosed, on_throw, hempty, if_neg (by simp only [List.length_nil]; omega)]
        exact ⟨_, rfl, by simp⟩
      · have hlength : (s.unread.take k).length = min k s.unread.length := List.length_take
        obtain ⟨s', hon, hunread⟩ := ih (n - (s.unread.take k).length) (by omega)
          (buffer ++ s.unread.take k) ⟨s.unread.drop k, fun i => s.found (i + 1)⟩
          (by rw [List.length_append]; omega)
        rw [dif_neg hclosed, hon]
        refine ⟨s', ?_, ?_⟩
        · congr 1
          by_cases hlong : n ≤ s.unread.length
          · have hmin : min k s.unread.length = k := by omega
            rw [if_pos hlong, hlength, hmin, if_pos (by rw [List.length_drop]; omega),
              List.append_assoc, ← List.take_add]
            congr 3
            omega
          · rw [if_neg hlong, if_neg (by rw [List.length_drop]; omega)]
        · rw [hunread, List.drop_drop, hlength]
          by_cases hshort : k ≤ s.unread.length
          · congr 1
            omega
          · rw [List.drop_eq_nil_of_le (by omega), List.drop_eq_nil_of_le (by omega)]

/-! ## Words -/

/-- The reading takes the word off the stream, however it arrives. -/
def Reads (r : Reading ε β α) (w : List β) (a : α) : Prop :=
  ∀ s rest, s.unread = w ++ rest → ∃ s', r.on s = (.ok a, s') ∧ s'.unread = rest

theorem reads_pure (a : α) : Reads (pure a : Reading ε β α) [] a :=
  fun s _ h => ⟨s, rfl, h⟩

theorem Reads.bind {r : Reading ε β α} {f : α → Reading ε β γ} {v w : List β} {a : α} {c : γ}
    (hr : r.Reads v a) (hf : (f a).Reads w c) : Reads (r >>= f) (v ++ w) c := by
  intro s rest hs
  obtain ⟨s₁, hs₁, hrest⟩ := hr s (w ++ rest) (by rw [hs, List.append_assoc])
  obtain ⟨s₂, hs₂, hdone⟩ := hf s₁ rest hrest
  exact ⟨s₂, by rw [on_bind_ok hs₁, hs₂], hdone⟩

theorem reads_receive (closed : ε) (w : List β) : (receive closed w.length []).Reads w w := by
  intro s rest hs
  obtain ⟨s', hon, hunread⟩ := on_receive closed w.length [] s
  rw [List.length_nil, Nat.sub_zero, hs] at hon hunread
  rw [if_pos (by rw [List.length_append]; omega), List.take_left] at hon
  exact ⟨s', hon, by rw [hunread, List.drop_left]⟩

/-- **A word that is read does not begin another one.** -/
theorem Reads.eq_of_isPrefix {r : Reading ε β α} {v w : List β} {a b : α} (hv : r.Reads v a)
    (hw : r.Reads w b) (h : v <+: w) : v = w ∧ a = b := by
  obtain ⟨t, rfl⟩ := h
  obtain ⟨s₁, hon₁, hrest₁⟩ := hv ⟨v ++ t, fun _ => 0⟩ t rfl
  obtain ⟨s₂, hon₂, hrest₂⟩ := hw ⟨v ++ t, fun _ => 0⟩ [] (List.append_nil _).symm
  rw [hon₁] at hon₂
  obtain ⟨hab, rfl⟩ := Prod.mk.inj hon₂
  rw [hrest₁] at hrest₂
  exact ⟨by rw [hrest₂, List.append_nil], Except.ok.inj hab⟩

/-! ## What is taken -/

/-- The reading takes at most `n` symbols off the stream. -/
def Takes (n : ℕ) (r : Reading ε β α) : Prop :=
  ∀ s, ∃ taken, taken.length ≤ n ∧ s.unread = taken ++ (r.on s).2.unread

theorem takes_pure (a : α) : Takes 0 (pure a : Reading ε β α) := fun _ => ⟨[], le_rfl, rfl⟩

theorem takes_throw (e : ε) : Takes 0 (throw e : Reading ε β α) := fun _ => ⟨[], le_rfl, rfl⟩

theorem Takes.mono {m n : ℕ} {r : Reading ε β α} (h : Takes m r) (hmn : m ≤ n) : Takes n r := by
  intro s
  obtain ⟨taken, hlength, hs⟩ := h s
  exact ⟨taken, hlength.trans hmn, hs⟩

theorem Takes.bind {m n : ℕ} {r : Reading ε β α} {f : α → Reading ε β γ} (hr : Takes m r)
    (hf : ∀ a, Takes n (f a)) : Takes (m + n) (r >>= f) := by
  intro s
  obtain ⟨taken, hlength, hs⟩ := hr s
  rw [on_bind]
  rcases hon : r.on s with ⟨result, s'⟩
  rw [hon] at hs
  cases result with
  | error e => exact ⟨taken, by omega, hs⟩
  | ok a =>
    obtain ⟨taken', hlength', hs'⟩ := hf a s'
    exact ⟨taken ++ taken', by rw [List.length_append]; omega, by rw [hs, List.append_assoc, ← hs']⟩

theorem takes_receive (closed : ε) (n : ℕ) : Takes n (receive closed n ([] : List β)) := by
  intro s
  obtain ⟨s', hon, hunread⟩ := on_receive closed n [] s
  rw [List.length_nil, Nat.sub_zero] at hon hunread
  refine ⟨s.unread.take n, List.length_take_le n _, ?_⟩
  rw [hon, hunread, List.take_append_drop]

end Reading
