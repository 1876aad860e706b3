import Mathlib.Data.List.Basic

/-!
# `Lib.TokenReader` — parsers of token streams, and the phrases they read

A parser takes a value off the front of a stream or stops with an error. What it accepts is best said without
it, as a grammar: a relation `L` between values and phrases, that is lists of tokens. `Reads p L Follow` ties
the two together, in both directions:

* `sound`: what `p` takes off a stream is a phrase of the value it returns;
* `complete`: in front of anything that may follow, `p` takes exactly the phrase.

The second direction needs `Follow` because a parser that looks one token ahead reads a phrase only if the token
behind it does not belong to it. Sequences compose as long as what the second reads may follow the first
(`Reads.bind`).

Two loops over lists with separators are treated in the same way: `terminated` puts the separators behind the
phrases and reads the whole stream, `led` has them in front and folds the values into a state as it goes. Each
loop has one theorem for what it accepts and one for the error it reports. All four are by induction on the fuel
on the way from the run to the grammar, and by induction on the phrases on the way back; the length of the
stream is fuel enough, since every phrase takes at least one token. That no phrase is empty is therefore a
hypothesis throughout.
-/

namespace Lib

/-- Takes a value off the front of a stream of tokens, or stops with an error. -/
def TokenReader (τ ε α : Type) := List τ → Except ε (α × List τ)

namespace TokenReader
variable {τ ε α β : Type}

/-- `p` reads the phrases `L` of its values, in front of what may `Follow`. The two fields do not follow from
    each other: a parser that takes less than it could is sound, and one that takes more than a phrase can still
    be complete. -/
structure Reads (p : TokenReader τ ε α) (L : α → List τ → Prop) (Follow : List τ → Prop) : Prop where
  sound : ∀ {ts a rest}, p ts = .ok (a, rest) → ∃ w, ts = w ++ rest ∧ L a w
  complete : ∀ {a w rest}, L a w → Follow rest → p (w ++ rest) = .ok (a, rest)

/-! ## Sequences

The combinators, what a run of each looks like when it succeeds, and then the grammar of each. A rule of the
second kind is proved from the characterisation of the first kind and the same facts about the parts, and so
nothing behind this section unfolds a combinator. -/

def bind (p : TokenReader τ ε α) (q : α → TokenReader τ ε β) : TokenReader τ ε β := fun ts => do
  let (a, rest) ← p ts
  q a rest

def map (f : α → β) (p : TokenReader τ ε α) : TokenReader τ ε β := fun ts => do
  let (a, rest) ← p ts
  return (f a, rest)

/-- Take one token that `f` knows. -/
def token (f : τ → Option α) (expected : ε) : TokenReader τ ε α
  | [] => .error expected
  | t :: ts =>
      match f t with
      | some a => .ok (a, ts)
      | none => .error expected

/-- Read the whole stream. -/
def all (p : TokenReader τ ε α) (leftOver : ε) (ts : List τ) : Except ε α := do
  let (a, rest) ← p ts
  if rest.isEmpty then return a else throw leftOver

/-- A sequence succeeds when both parts do, the second on what the first has left. -/
theorem bind_ok_iff {p : TokenReader τ ε α} {q : α → TokenReader τ ε β} {ts rest : List τ} {b : β} :
    p.bind q ts = .ok (b, rest) ↔ ∃ a rest', p ts = .ok (a, rest') ∧ q a rest' = .ok (b, rest) := by
  unfold TokenReader.bind
  cases hp : p ts with
  | error e =>
      constructor
      · intro h
        cases h
      · rintro ⟨a, rest', h, -⟩
        cases h
  | ok r =>
      obtain ⟨a, rest'⟩ := r
      constructor
      · intro h
        exact ⟨a, rest', rfl, h⟩
      · rintro ⟨a', rest'', h, hq⟩
        cases h
        exact hq

theorem map_ok_iff {f : α → β} {p : TokenReader τ ε α} {ts rest : List τ} {b : β} :
    p.map f ts = .ok (b, rest) ↔ ∃ a, p ts = .ok (a, rest) ∧ f a = b := by
  unfold TokenReader.map
  cases hp : p ts with
  | error e =>
      constructor
      · intro h
        cases h
      · rintro ⟨a, h, -⟩
        cases h
  | ok r =>
      obtain ⟨a, rest'⟩ := r
      constructor
      · intro h
        cases h
        exact ⟨a, rfl, rfl⟩
      · rintro ⟨a', h, rfl⟩
        cases h
        rfl

/-- Nothing may be left over. -/
theorem all_ok_iff {p : TokenReader τ ε α} {leftOver : ε} {ts : List τ} {a : α} :
    p.all leftOver ts = .ok a ↔ p ts = .ok (a, []) := by
  unfold all
  cases hp : p ts with
  | error e =>
      constructor <;> intro h <;> cases h
  | ok r =>
      obtain ⟨a', rest⟩ := r
      cases rest with
      | nil =>
          constructor
          · intro h
            cases h
            rfl
          · intro h
            cases h
            rfl
      | cons t rest =>
          constructor <;> intro h <;> cases h

namespace Reads

/-- One token. -/
theorem token (f : τ → Option α) (expected : ε) :
    Reads (TokenReader.token f expected) (fun a w => ∃ t, w = [t] ∧ f t = some a) fun _ => True := by
  constructor
  · intro ts a rest h
    cases ts with
    | nil => cases h
    | cons t ts =>
        cases hf : f t with
        | none =>
            simp only [TokenReader.token, hf] at h
            cases h
        | some a' =>
            simp only [TokenReader.token, hf] at h
            cases h
            exact ⟨[t], rfl, t, rfl, hf⟩
  · rintro a w rest ⟨t, rfl, hf⟩ -
    simp only [List.singleton_append, TokenReader.token, hf]

theorem map {p : TokenReader τ ε α} {L : α → List τ → Prop} {F : List τ → Prop} (hp : Reads p L F) (f : α → β) :
    Reads (p.map f) (fun b w => ∃ a, L a w ∧ f a = b) F := by
  constructor
  · intro ts b rest h
    obtain ⟨a, ha, rfl⟩ := map_ok_iff.mp h
    obtain ⟨w, rfl, hw⟩ := hp.sound ha
    exact ⟨w, rfl, a, hw, rfl⟩
  · rintro b w rest ⟨a, hw, rfl⟩ hrest
    exact map_ok_iff.mpr ⟨a, hp.complete hw hrest, rfl⟩

/-- One phrase behind the other. The first parser must stop where the second phrase begins, and that is what
    `hfollow` asks for: whatever the second reads may follow what the first reads. -/
theorem bind {p : TokenReader τ ε α} {L : α → List τ → Prop} {F : List τ → Prop} (hp : Reads p L F)
    {q : α → TokenReader τ ε β} {M : α → β → List τ → Prop} {G : List τ → Prop} (hq : ∀ a, Reads (q a) (M a) G)
    (hfollow : ∀ a b w rest, M a b w → G rest → F (w ++ rest)) :
    Reads (p.bind q) (fun b w => ∃ a u v, w = u ++ v ∧ L a u ∧ M a b v) G := by
  constructor
  · intro ts b rest h
    obtain ⟨a, rest', ha, hb⟩ := bind_ok_iff.mp h
    obtain ⟨u, rfl, hu⟩ := hp.sound ha
    obtain ⟨v, rfl, hv⟩ := (hq a).sound hb
    exact ⟨u ++ v, (List.append_assoc u v rest).symm, a, u, v, rfl, hu, hv⟩
  · rintro b w rest ⟨a, u, v, rfl, hu, hv⟩ hrest
    refine bind_ok_iff.mpr ⟨a, v ++ rest, ?_, (hq a).complete hv hrest⟩
    rw [List.append_assoc]
    exact hp.complete hu (hfollow a b v rest hv hrest)

/-- The phrases may be described otherwise. -/
theorem congr {p : TokenReader τ ε α} {L M : α → List τ → Prop} {F G : List τ → Prop} (hp : Reads p L F)
    (hLM : ∀ a w, L a w ↔ M a w) (hFG : ∀ rest, G rest → F rest) : Reads p M G := by
  constructor
  · intro ts a rest h
    obtain ⟨w, rfl, hw⟩ := hp.sound h
    exact ⟨w, rfl, (hLM a w).mp hw⟩
  · intro a w rest hw hrest
    exact hp.complete ((hLM a w).mpr hw) (hFG rest hrest)

/-- A parser that may stand at the end of the stream reads it if and only if the whole stream is a phrase. -/
theorem all {p : TokenReader τ ε α} {L : α → List τ → Prop} {F : List τ → Prop} (hp : Reads p L F) (hF : F [])
    {leftOver : ε} {ts : List τ} {a : α} : p.all leftOver ts = .ok a ↔ L a ts := by
  rw [all_ok_iff]
  constructor
  · intro h
    obtain ⟨w, rfl, hw⟩ := hp.sound h
    rwa [List.append_nil]
  · intro h
    have hread := hp.complete h hF
    rwa [List.append_nil] at hread

end Reads

/-! ## Lists with separators

The grammar of a list says where separators stand. `Terminated` is a list with one behind each phrase but maybe
the last; `Followed` is the beginning of one, with a separator behind each; `Led` is a list with one in front of
each. `Stray` is the one separator that some loops tolerate at the end.

The loops take fuel, one unit for each phrase. With too little they stop as if the stream were at its end, and
so every theorem about them has the hypothesis that the stream is not longer than the fuel. -/

section
variable (isSep : τ → Bool)

/-- A separator or nothing follows. -/
def Ends (rest : List τ) : Prop := ∀ t ∈ rest.head?, isSep t = true

/-- Phrases with a separator behind each, which the last may lack. -/
inductive Terminated (L : α → List τ → Prop) : List α → List τ → Prop where
  | nil : Terminated L [] []
  | last {a : α} {w : List τ} : L a w → Terminated L [a] w
  | cons {a : α} {as : List α} {w ws : List τ} {t : τ} :
      L a w → isSep t = true → Terminated L as ws → Terminated L (a :: as) (w ++ t :: ws)

/-- Phrases with a separator behind each. -/
inductive Followed (L : α → List τ → Prop) : List α → List τ → Prop where
  | nil : Followed L [] []
  | cons {a : α} {as : List α} {w ws : List τ} {t : τ} :
      L a w → isSep t = true → Followed L as ws → Followed L (a :: as) (w ++ t :: ws)

/-- Phrases with a separator in front of each. -/
inductive Led (L : α → List τ → Prop) : List α → List τ → Prop where
  | nil : Led L [] []
  | cons {a : α} {as : List α} {w ws : List τ} {t : τ} :
      isSep t = true → L a w → Led L as ws → Led L (a :: as) (t :: w ++ ws)

/-- Nothing, or one separator. -/
def Stray (w : List τ) : Prop := w = [] ∨ ∃ t, isSep t = true ∧ w = [t]

/-- Read phrases to the end of the stream, a separator between them, and maybe one at the end. -/
def terminated (p : TokenReader τ ε α) (noSep : ε) : Nat → List α → List τ → Except ε (List α)
  | _, as, [] => .ok as
  | 0, as, _ => .ok as
  | n + 1, as, t :: ts => do
      let (a, rest) ← p (t :: ts)
      match rest with
      | [] => .ok (as ++ [a])
      | s :: rest => if isSep s then terminated p noSep n (as ++ [a]) rest else .error noSep

/-- While a separator follows, read it and a phrase, and give it to `f`. A separator may be the last token. -/
def led (p : TokenReader τ ε α) (f : β → α → Except ε β) : Nat → β → TokenReader τ ε β
  | _, b, [] => .ok (b, [])
  | 0, b, ts => .ok (b, ts)
  | n + 1, b, t :: ts =>
      if isSep t then
        match ts with
        | [] => .ok (b, [])
        | s :: ts => do
            let (a, rest) ← p (s :: ts)
            let b ← f b a
            led p f n b rest
      else .ok (b, t :: ts)

end

section
variable {isSep : τ → Bool} {p : TokenReader τ ε α} {L : α → List τ → Prop}

theorem ends_nil : Ends isSep ([] : List τ) := by
  intro t ht
  cases ht

theorem ends_cons {t : τ} {ts : List τ} (ht : isSep t = true) : Ends isSep (t :: ts) := by
  intro s hs
  cases hs
  exact ht

/-- The empty stream is the empty list, since no phrase is empty. -/
theorem Terminated.nil_iff (hne : ∀ {a}, ¬ L a []) {as : List α} : Terminated isSep L as [] ↔ as = [] := by
  constructor
  · intro h
    generalize hts : ([] : List τ) = ts at h
    cases h with
    | nil => rfl
    | last h =>
        subst hts
        exact absurd h hne
    | cons _ _ _ => exact absurd hts.symm (List.append_ne_nil_of_right_ne_nil _ (List.cons_ne_nil _ _))
  · rintro rfl
    exact .nil

/-- The last phrase of the stream. -/
theorem terminated_last {noSep : ε} {n : Nat} {acc : List α} {t : τ} {ts : List τ} {a : α}
    (h : p (t :: ts) = .ok (a, [])) : terminated isSep p noSep (n + 1) acc (t :: ts) = .ok (acc ++ [a]) := by
  simp only [terminated, h]
  rfl

/-- A phrase with something behind it. -/
theorem terminated_next {noSep : ε} {n : Nat} {acc : List α} {t s : τ} {ts rest : List τ} {a : α}
    (h : p (t :: ts) = .ok (a, s :: rest)) :
    terminated isSep p noSep (n + 1) acc (t :: ts) =
      if isSep s then terminated isSep p noSep n (acc ++ [a]) rest else .error noSep := by
  simp only [terminated, h]
  rfl

/-- **Lists with separators between the phrases.** From the run to the grammar by induction on the fuel: the
    phrase that was read is not empty, so what is left is shorter. Back by induction on the list: the parser
    reads each phrase because a separator or the end follows it. -/
theorem terminated_ok_iff (hp : Reads p L (Ends isSep)) (hne : ∀ {a}, ¬ L a []) {noSep : ε} {n : Nat}
    {acc as : List α} {ts : List τ} (hn : ts.length ≤ n) :
    terminated isSep p noSep n acc ts = .ok as ↔ ∃ as', as = acc ++ as' ∧ Terminated isSep L as' ts := by
  constructor
  · intro h
    induction n generalizing acc ts with
    | zero =>
        obtain rfl := List.length_eq_zero_iff.mp (Nat.le_zero.mp hn)
        cases h
        exact ⟨[], (List.append_nil _).symm, .nil⟩
    | succ n ih =>
        cases ts with
        | nil =>
            cases h
            exact ⟨[], (List.append_nil _).symm, .nil⟩
        | cons t ts =>
            cases hread : p (t :: ts) with
            | error e =>
                simp only [terminated, hread] at h
                cases h
            | ok r =>
                obtain ⟨a, rest⟩ := r
                obtain ⟨w, hts, hw⟩ := hp.sound hread
                cases rest with
                | nil =>
                    rw [terminated_last hread] at h
                    cases h
                    rw [hts, List.append_nil]
                    exact ⟨[a], rfl, .last hw⟩
                | cons s rest =>
                    rw [terminated_next hread] at h
                    by_cases hs : isSep s = true
                    · rw [if_pos hs] at h
                      have hlen := congrArg List.length hts
                      simp only [List.length_cons, List.length_append] at hlen hn
                      obtain ⟨as', rfl, h'⟩ := ih (by omega) h
                      rw [hts, List.append_assoc]
                      exact ⟨a :: as', rfl, .cons hw hs h'⟩
                    · rw [if_neg hs] at h
                      cases h
  · rintro ⟨as', rfl, h⟩
    induction h generalizing acc n with
    | nil =>
        rw [List.append_nil]
        cases n <;> rfl
    | @last a w hw =>
        cases w with
        | nil => exact absurd hw hne
        | cons t w =>
            have hread := hp.complete hw ends_nil
            rw [List.append_nil] at hread
            obtain ⟨n, rfl⟩ :=
              Nat.exists_eq_add_one_of_ne_zero (Nat.ne_of_gt (Nat.lt_of_lt_of_le (Nat.succ_pos _) hn))
            exact terminated_last hread
    | @cons a as w ws s hw hs h ih =>
        cases w with
        | nil => exact absurd hw hne
        | cons t w =>
            have hread : p ((t :: w) ++ s :: ws) = .ok (a, s :: ws) := hp.complete hw (ends_cons hs)
            simp only [List.length_append, List.length_cons] at hn
            obtain ⟨n, rfl⟩ : ∃ n', n = n' + 1 := ⟨n - 1, by omega⟩
            rw [List.cons_append] at hread ⊢
            rw [terminated_next hread, if_pos hs, ih (n := n) (by omega), List.append_assoc]
            rfl

/-- What can go wrong with one phrase of a list: reading it, or what stands behind it. -/
def Breaks (isSep : τ → Bool) (p : TokenReader τ ε α) (noSep : ε) (ts : List τ) (e : ε) : Prop :=
  p ts = .error e ∨ ∃ a t rest, p ts = .ok (a, t :: rest) ∧ isSep t = false ∧ e = noSep

/-- A phrase that breaks ends the loop with its error. -/
theorem terminated_of_breaks {noSep e : ε} {n : Nat} {acc : List α} {s : τ} {rest : List τ}
    (h : Breaks isSep p noSep (s :: rest) e) : terminated isSep p noSep (n + 1) acc (s :: rest) = .error e := by
  rcases h with hread | ⟨a, t, rest', hread, ht, rfl⟩
  · simp only [terminated, hread]
    rfl
  · rw [terminated_next hread, if_neg (by rw [ht]; exact Bool.false_ne_true)]

/-- **Where reading a list fails**: at the first phrase that cannot be read, or behind which no separator
    stands. The phrases before it are a list of their own (`Followed`), and this is what makes it the first: had
    one of them been broken, the loop would not have come further. -/
theorem terminated_error_iff (hp : Reads p L (Ends isSep)) (hne : ∀ {a}, ¬ L a []) {noSep e : ε} {n : Nat}
    {acc : List α} {ts : List τ} (hn : ts.length ≤ n) :
    terminated isSep p noSep n acc ts = .error e ↔ ∃ as u s rest, ts = u ++ s :: rest ∧ Followed isSep L as u ∧
      Breaks isSep p noSep (s :: rest) e := by
  constructor
  · intro h
    induction n generalizing acc ts with
    | zero =>
        obtain rfl := List.length_eq_zero_iff.mp (Nat.le_zero.mp hn)
        cases h
    | succ n ih =>
        cases ts with
        | nil => cases h
        | cons s ts =>
            by_cases hbreaks : Breaks isSep p noSep (s :: ts) e
            · exact ⟨[], [], s, ts, rfl, .nil, hbreaks⟩
            · -- the error comes later
              cases hread : p (s :: ts) with
              | error e' =>
                  rw [terminated_of_breaks (.inl hread)] at h
                  cases h
                  exact absurd (.inl hread) hbreaks
              | ok r =>
                  obtain ⟨a, rest⟩ := r
                  cases rest with
                  | nil =>
                      rw [terminated_last hread] at h
                      cases h
                  | cons t rest =>
                      by_cases ht : isSep t = true
                      · rw [terminated_next hread, if_pos ht] at h
                        obtain ⟨w, hts, hw⟩ := hp.sound hread
                        have hlen := congrArg List.length hts
                        simp only [List.length_cons, List.length_append] at hlen hn
                        obtain ⟨as, u, s', rest', rfl, hu, hbreaks'⟩ := ih (by omega) h
                        refine ⟨a :: as, w ++ t :: u, s', rest', ?_, .cons hw ht hu, hbreaks'⟩
                        rw [hts, List.append_assoc, List.cons_append]
                      · rw [Bool.not_eq_true] at ht
                        rw [terminated_of_breaks (.inr ⟨a, t, rest, hread, ht, rfl⟩)] at h
                        cases h
                        exact absurd (.inr ⟨a, t, rest, hread, ht, rfl⟩) hbreaks
  · rintro ⟨as, u, s, rest, rfl, hu, hbreaks⟩
    induction hu generalizing acc n with
    | nil =>
        rw [List.nil_append, List.length_cons] at hn
        obtain ⟨n, rfl⟩ : ∃ n', n = n' + 1 := ⟨n - 1, by omega⟩
        exact terminated_of_breaks hbreaks
    | @cons a as w ws t hw ht hws ih =>
        cases w with
        | nil => exact absurd hw hne
        | cons t' w =>
            have hphrase : p ((t' :: w) ++ t :: (ws ++ s :: rest)) = .ok (a, t :: (ws ++ s :: rest)) :=
              hp.complete hw (ends_cons ht)
            simp only [List.length_append, List.length_cons] at hn
            obtain ⟨n, rfl⟩ : ∃ n', n = n' + 1 := ⟨n - 1, by omega⟩
            rw [List.cons_append] at hphrase
            rw [List.append_assoc, List.cons_append, List.cons_append, terminated_next hphrase, if_pos ht]
            exact ih (by simp only [List.length_append, List.length_cons]; omega)

/-- A separator with something behind it. -/
theorem led_cons {f : β → α → Except ε β} {n : Nat} {b : β} {t s : τ} {ts : List τ} (ht : isSep t = true) :
    led isSep p f (n + 1) b (t :: s :: ts) =
      (p (s :: ts)).bind fun r => (f b r.1).bind fun b => led isSep p f n b r.2 := by
  simp only [led, if_pos ht]
  rfl

/-- One round of the loop that succeeds. -/
theorem led_next {f : β → α → Except ε β} {n : Nat} {b b' : β} {t s : τ} {ts rest : List τ} {a : α}
    (ht : isSep t = true) (hread : p (s :: ts) = .ok (a, rest)) (hf : f b a = .ok b') :
    led isSep p f (n + 1) b (t :: s :: ts) = led isSep p f n b' rest := by
  rw [led_cons ht, hread, Except.bind, hf]
  rfl

/-- A led list begins with a separator, or there is none. -/
theorem Led.ends {as : List α} {u rest : List τ} (hu : Led isSep L as u) (hrest : Ends isSep rest) :
    Ends isSep (u ++ rest) := by
  cases hu with
  | nil => exact hrest
  | cons ht _ _ => exact ends_cons ht

/-- The loop reads the phrases it is led to, and goes on behind them. This is the half of both theorems below
    that goes from the grammar to the run; how much fuel is left does not matter beyond the bound. -/
theorem led_append (hp : Reads p L (Ends isSep)) (hne : ∀ {a}, ¬ L a []) {f : β → α → Except ε β} {as : List α}
    {u rest : List τ} (hu : Led isSep L as u) {b b' : β} (hfold : as.foldlM f b = .ok b') (hrest : Ends isSep rest)
    {n m : Nat} (hn : u.length + m ≤ n) : ∃ k, m ≤ k ∧ led isSep p f n b (u ++ rest) = led isSep p f k b' rest := by
  induction hu generalizing b n with
  | nil =>
      cases hfold
      exact ⟨n, by simpa using hn, rfl⟩
  | @cons a as w ws t ht hw hws ih =>
      rw [List.foldlM_cons] at hfold
      cases hf : f b a with
      | error e =>
          rw [hf] at hfold
          cases hfold
      | ok b₁ =>
          rw [hf] at hfold
          simp only [List.length_append, List.length_cons] at hn
          obtain ⟨n, rfl⟩ : ∃ n', n = n' + 1 := ⟨n - 1, by omega⟩
          obtain ⟨k, hk, heq⟩ := ih hfold (n := n) (by omega)
          refine ⟨k, hk, ?_⟩
          cases w with
          | nil => exact absurd hw hne
          | cons s w =>
              have hread := hp.complete hw (hws.ends hrest)
              rw [← heq, List.append_assoc, List.cons_append, List.cons_append]
              exact led_next ht hread hf

/-- What can go wrong with one phrase: reading it, or what `f` makes of it. -/
def Stops (p : TokenReader τ ε α) (f : β → α → Except ε β) (b : β) (ts : List τ) (e : ε) : Prop :=
  p ts = .error e ∨ ∃ a rest, p ts = .ok (a, rest) ∧ f b a = .error e

/-- A phrase that cannot be read, or whose value is refused, ends the loop with its error. -/
theorem led_of_stops {f : β → α → Except ε β} {n : Nat} {b : β} {t s : τ} {ts : List τ} {e : ε} (ht : isSep t = true)
    (h : Stops p f b (s :: ts) e) : led isSep p f (n + 1) b (t :: s :: ts) = .error e := by
  rw [led_cons ht]
  rcases h with hread | ⟨a, rest, hread, hf⟩
  · rw [hread]
    rfl
  · rw [hread, Except.bind, hf]
    rfl

/-- How a loop that reads its whole stream came to its end: by led phrases, all of whose values `f` accepted,
    and then maybe one separator with nothing behind it. By induction on the fuel. -/
theorem led_ok (hp : Reads p L (Ends isSep)) {f : β → α → Except ε β} {n : Nat} {b b' : β} {ts : List τ}
    (hn : ts.length ≤ n) (h : led isSep p f n b ts = .ok (b', [])) :
    ∃ as u v, ts = u ++ v ∧ Led isSep L as u ∧ Stray isSep v ∧ as.foldlM f b = .ok b' := by
  induction n generalizing b ts with
  | zero =>
      obtain rfl := List.length_eq_zero_iff.mp (Nat.le_zero.mp hn)
      cases h
      exact ⟨[], [], [], rfl, .nil, .inl rfl, rfl⟩
  | succ n ih =>
      cases ts with
      | nil =>
          cases h
          exact ⟨[], [], [], rfl, .nil, .inl rfl, rfl⟩
      | cons t ts =>
          by_cases ht : isSep t = true
          · cases ts with
            | nil =>
                simp only [led, if_pos ht] at h
                cases h
                exact ⟨[], [], [t], rfl, .nil, .inr ⟨t, ht, rfl⟩, rfl⟩
            | cons s ts =>
                cases hread : p (s :: ts) with
                | error e =>
                    rw [led_of_stops ht (.inl hread)] at h
                    cases h
                | ok r =>
                    obtain ⟨a, rest⟩ := r
                    cases hf : f b a with
                    | error e =>
                        rw [led_of_stops ht (.inr ⟨a, rest, hread, hf⟩)] at h
                        cases h
                    | ok b₁ =>
                        rw [led_next ht hread hf] at h
                        obtain ⟨w, hts, hw⟩ := hp.sound hread
                        have hlen := congrArg List.length hts
                        simp only [List.length_cons, List.length_append] at hlen hn
                        obtain ⟨as, u, v, rfl, hu, hv, hfold⟩ := ih (by omega) h
                        refine ⟨a :: as, t :: w ++ u, v, ?_, .cons ht hw hu, hv, ?_⟩
                        · rw [hts, List.cons_append, List.cons_append, List.append_assoc]
                        · rw [List.foldlM_cons, hf]
                          exact hfold
          · simp only [led, if_neg ht] at h
            cases h

/-- **The loop over phrases that are led by a separator.** It succeeds on lists of the grammar, and what it
    returns is the fold of the values in the order of the stream. -/
theorem led_ok_iff (hp : Reads p L (Ends isSep)) (hne : ∀ {a}, ¬ L a []) {f : β → α → Except ε β} {n : Nat}
    {b b' : β} {ts : List τ} (hn : ts.length ≤ n) :
    led isSep p f n b ts = .ok (b', []) ↔
      ∃ as u v, ts = u ++ v ∧ Led isSep L as u ∧ Stray isSep v ∧ as.foldlM f b = .ok b' := by
  constructor
  · exact led_ok hp hn
  · rintro ⟨as, u, v, rfl, hu, hv, hfold⟩
    rw [List.length_append] at hn
    rcases hv with rfl | ⟨t, ht, rfl⟩
    · obtain ⟨k, -, heq⟩ := led_append hp hne hu hfold ends_nil hn
      rw [heq]
      cases k <;> rfl
    · obtain ⟨k, hk, heq⟩ := led_append hp hne hu hfold (ends_cons ht) hn
      obtain ⟨k, rfl⟩ := Nat.exists_eq_add_one_of_ne_zero (Nat.ne_of_gt hk)
      rw [heq]
      simp only [led, if_pos ht]

/-- **Where the loop fails**: at the first phrase that cannot be read or that `f` refuses, whatever stands
    behind it. Forwards by induction on the fuel; in each round either this phrase stops the loop, or it is read
    and folded and the error comes later. -/
theorem led_error_iff (hp : Reads p L (Ends isSep)) (hne : ∀ {a}, ¬ L a []) {f : β → α → Except ε β} {n : Nat}
    {b : β} {ts : List τ} {e : ε} (hn : ts.length ≤ n) :
    led isSep p f n b ts = .error e ↔ ∃ as u t s rest b', ts = u ++ t :: s :: rest ∧ Led isSep L as u ∧
      as.foldlM f b = .ok b' ∧ isSep t = true ∧ Stops p f b' (s :: rest) e := by
  constructor
  · intro h
    induction n generalizing b ts with
    | zero =>
        obtain rfl := List.length_eq_zero_iff.mp (Nat.le_zero.mp hn)
        cases h
    | succ n ih =>
        cases ts with
        | nil => cases h
        | cons t ts =>
            by_cases ht : isSep t = true
            · cases ts with
              | nil =>
                  simp only [led, if_pos ht] at h
                  cases h
              | cons s ts =>
                  by_cases hstops : Stops p f b (s :: ts) e
                  · exact ⟨[], [], t, s, ts, b, rfl, .nil, rfl, ht, hstops⟩
                  · -- the error comes later
                    unfold Stops at hstops
                    cases hread : p (s :: ts) with
                    | error e' =>
                        rw [led_of_stops ht (.inl hread)] at h
                        cases h
                        exact absurd (.inl hread) hstops
                    | ok r =>
                        obtain ⟨a, rest⟩ := r
                        cases hf : f b a with
                        | error e' =>
                            rw [led_of_stops ht (.inr ⟨a, rest, hread, hf⟩)] at h
                            cases h
                            exact absurd (.inr ⟨a, rest, hread, hf⟩) hstops
                        | ok b₁ =>
                            rw [led_next ht hread hf] at h
                            obtain ⟨w, hts, hw⟩ := hp.sound hread
                            have hlen := congrArg List.length hts
                            simp only [List.length_cons, List.length_append] at hlen hn
                            obtain ⟨as, u, t', s', rest', b', rfl, hu, hfold, ht', hstops'⟩ := ih (by omega) h
                            refine ⟨a :: as, t :: w ++ u, t', s', rest', b', ?_, .cons ht hw hu, ?_, ht', hstops'⟩
                            · rw [hts, List.cons_append, List.cons_append, List.append_assoc]
                            · rw [List.foldlM_cons, hf]
                              exact hfold
            · simp only [led, if_neg ht] at h
              cases h
  · rintro ⟨as, u, t, s, rest, b', rfl, hu, hfold, ht, hstops⟩
    rw [List.length_append] at hn
    obtain ⟨k, hk, heq⟩ := led_append hp hne hu hfold (ends_cons ht) hn
    rw [List.length_cons] at hk
    obtain ⟨k, rfl⟩ : ∃ k', k = k' + 1 := ⟨k - 1, by omega⟩
    rw [heq]
    exact led_of_stops ht hstops

end

end TokenReader
end Lib
