import Hemlig.Concurrent.RelyGuarantee

/-!
# Monotone disciplines

Where every step under a discipline leads to a later store, in some order, an assertion that later
stores keep survives the steps of all processes, its own included (`Lasting`).  A loop then collects
what its rounds establish (`Safe.forM_all`).
-/

namespace Hemlig.Concurrent

variable {Q : Type} {A : Q → Type} {ε α β γ σ χ ι η : Type}

/-- An assertion that later stores keep. -/
def Lasting (later : σ → σ → Prop) (F : σ → Prop) : Prop := ∀ s s', later s s' → F s → F s'

namespace Lasting

variable {later : σ → σ → Prop} {F G : σ → Prop}

theorem const (p : Prop) : Lasting later fun _ => p := fun _ _ _ h => h

theorem and (hF : Lasting later F) (hG : Lasting later G) : Lasting later fun s => F s ∧ G s :=
  fun s s' hlater h => ⟨hF s s' hlater h.1, hG s s' hlater h.2⟩

theorem forall_mem {items : List γ} {G : γ → σ → Prop} (hG : ∀ item, Lasting later (G item)) :
    Lasting later fun s => ∀ item ∈ items, G item s :=
  fun s s' hlater h item hitem => hG item s s' hlater (h item hitem)

end Lasting

namespace Discipline

variable {S : System Q A ε α σ χ ι η} {D : Discipline S} {later : σ → σ → Prop}
  {issued : Q → σ → Prop} {pid : ℕ} {F : σ → Prop}

variable (D) in
/-- Every step leads to a later store. -/
structure Monotone (later : σ → σ → Prop) : Prop where
  request : ∀ {pid q choice answer s s'}, D.inv s → D.pre pid q s →
    S.exec pid q choice s = some (answer, s') → later s s'
  start : ∀ input {s}, D.inv s → later s (S.register input s)
  environment : ∀ {event s s'}, D.inv s → S.environment event s = some s' → later s s'

theorem Monotone.stable (h : D.Monotone later) (hF : Lasting later F) : D.Stable pid F := by
  intro s s' hinv hstep hs
  cases hstep with
  | request hne hpre hexec => exact hF s s' (h.request hinv hpre hexec) hs
  | start hregister =>
      subst hregister
      exact hF s _ (h.start _ hinv) hs
  | environment hevent => exact hF s s' (h.environment hinv hevent) hs

theorem Safe.on_error {F : σ → Prop} {program : Program Q A ε β} {R : β → σ → Prop}
    {E E' : ε → σ → Prop} (h : D.Safe issued pid F program R E)
    (hE : ∀ error s, D.inv s → E error s → E' error s) : D.Safe issued pid F program R E' :=
  h.weaken (fun _ _ h => h) (fun _ _ _ h => h) hE

/-- A request keeps what lasts. -/
theorem Safe.request_lasting (h : D.Monotone later) (hF : Lasting later F) {q : Q}
    {R : A q → σ → Prop} {E : ε → σ → Prop} (hpre : ∀ s, D.inv s → F s → D.pre pid q s)
    (hpost : ∀ s choice answer s', D.inv s → F s → S.exec pid q choice s = some (answer, s') →
      R answer s') :
    D.Safe issued pid F (Program.request q) (fun answer s => F s ∧ R answer s) E :=
  .request (h.stable hF) hpre fun s choice answer s' hinv hs _ hexec =>
    ⟨hF s s' (h.request hinv (hpre s hinv hs) hexec) hs, hpost s choice answer s' hinv hs hexec⟩

/-- **Loops.**  What each round establishes, beside what earlier ones have, holds of all items. -/
theorem Safe.forM_all {G : γ → σ → Prop} {f : γ → Program Q A ε PUnit} {E : ε → σ → Prop}
    {items : List γ} (h : ∀ item ∈ items, ∀ earlier : List γ,
      D.Safe issued pid (fun s => F s ∧ ∀ other ∈ earlier, G other s) (f item)
        (fun _ s => (F s ∧ ∀ other ∈ earlier, G other s) ∧ G item s) E) :
    D.Safe issued pid F (items.forM f) (fun _ s => F s ∧ ∀ item ∈ items, G item s) E := by
  suffices hrest : ∀ earlier : List γ, D.Safe issued pid (fun s => F s ∧ ∀ other ∈ earlier, G other s)
      (items.forM f) (fun _ s => F s ∧ ∀ item ∈ earlier ++ items, G item s) E from
    (hrest []).weaken (fun _ _ hs => ⟨hs, by simp⟩) (fun _ _ _ hs => hs) fun _ _ _ hs => hs
  induction items with
  | nil =>
      intro earlier
      rw [List.append_nil]
      exact fun _ _ hs => hs
  | cons item rest ih =>
      intro earlier
      have hround := h item List.mem_cons_self earlier
      refine .bind (R := fun _ s => F s ∧ ∀ other ∈ earlier ++ [item], G other s)
        (hround.post fun _ s _ hs => ?_) fun _ => ?_
      · refine ⟨hs.1.1, fun other hother => ?_⟩
        obtain hold | hnew := List.mem_append.mp hother
        · exact hs.1.2 other hold
        · exact List.mem_singleton.mp hnew ▸ hs.2
      · have hrest := ih (fun other hother => h other (List.mem_cons_of_mem _ hother))
          (earlier ++ [item])
        rw [List.append_assoc, List.singleton_append] at hrest
        exact hrest

end Discipline

end Hemlig.Concurrent
