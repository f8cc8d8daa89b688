import Mathlib.Data.List.Nodup
import Mathlib.Data.List.Perm.Basic

/-!
# Tokens that are used once

A token is drawn, held by one party, perhaps sent on its way, and used in the end. It is at
one place at a time and never comes back after its use.
-/

namespace TaskQueue.OneUseTokens

universe u v

variable {ι : Type u} {τ : Type v}

/-- Where the tokens are; `drawn` are all that there have been. -/
structure Tokens (ι : Type u) (τ : Type v) where
  held : ι → Option τ
  sent : List τ
  used : List τ
  drawn : List τ

/-- Every token is at one place, and was drawn before. -/
structure OneUse (t : Tokens ι τ) : Prop where
  own : ∀ i j token, t.held i = some token → t.held j = some token → i = j
  apart : ∀ i token, t.held i = some token → token ∉ t.sent
  sentOnce : t.sent.Nodup
  heldUnused : ∀ i token, t.held i = some token → token ∉ t.used
  sentUnused : ∀ token ∈ t.sent, token ∉ t.used
  heldDrawn : ∀ i token, t.held i = some token → token ∈ t.drawn
  sentDrawn : ∀ token ∈ t.sent, token ∈ t.drawn
  usedDrawn : ∀ token ∈ t.used, token ∈ t.drawn

namespace OneUse
variable {t t' : Tokens ι τ} {i : ι} {token : τ}

theorem empty : OneUse (⟨fun _ => none, [], [], []⟩ : Tokens ι τ) where
  own := fun i j token h => by cases h
  apart := fun i token h => by cases h
  sentOnce := List.nodup_nil
  heldUnused := fun i token h => by cases h
  sentUnused := fun token h => by cases h
  heldDrawn := fun i token h => by cases h
  sentDrawn := fun token h => by cases h
  usedDrawn := fun token h => by cases h

/-- Tokens may get lost, and others be drawn. -/
theorem lose (h : OneUse t) (hheld : ∀ i token, t'.held i = some token → t.held i = some token)
    (hsent : List.Sublist t'.sent t.sent) (hused : t'.used ⊆ t.used)
    (hdrawn : t.drawn ⊆ t'.drawn) (husedDrawn : t'.used ⊆ t'.drawn) : OneUse t' where
  own := fun i j token hi hj => h.own i j token (hheld i token hi) (hheld j token hj)
  apart := fun i token hi hmem => h.apart i token (hheld i token hi) (hsent.subset hmem)
  sentOnce := h.sentOnce.sublist hsent
  heldUnused := fun i token hi hmem => h.heldUnused i token (hheld i token hi) (hused hmem)
  sentUnused := fun token hs hmem => h.sentUnused token (hsent.subset hs) (hused hmem)
  heldDrawn := fun i token hi => hdrawn (h.heldDrawn i token (hheld i token hi))
  sentDrawn := fun token hs => hdrawn (h.sentDrawn token (hsent.subset hs))
  usedDrawn := fun _ hu => husedDrawn hu

/-- A party is given a token that has just been drawn. -/
theorem gain (h : OneUse t) (hothers : ∀ j, j ≠ i → t'.held j = t.held j)
    (hself : t'.held i = some token) (hnew : token ∉ t.drawn) (hsent : t'.sent = t.sent)
    (hused : t'.used = t.used) (hdrawn : t.drawn ⊆ t'.drawn) (htoken : token ∈ t'.drawn) :
    OneUse t' := by
  have hold : ∀ {j k}, t'.held j = some k → (j = i ∧ k = token) ∨ t.held j = some k := by
    intro j k hj
    by_cases hji : j = i
    · rw [hji, hself] at hj
      exact .inl ⟨hji, (Option.some.inj hj).symm⟩
    · rw [hothers j hji] at hj
      exact .inr hj
  refine ⟨?_, ?_, hsent ▸ h.sentOnce, ?_, ?_, ?_, ?_, ?_⟩
  · intro j k k' hj hk
    rcases hold hj with ⟨rfl, rfl⟩ | hj <;> rcases hold hk with ⟨rfl, hkk⟩ | hk
    · rfl
    · exact absurd (h.heldDrawn k _ hk) hnew
    · exact absurd (hkk ▸ h.heldDrawn j _ hj) hnew
    · exact h.own j k k' hj hk
  · intro j k hj
    rw [hsent]
    rcases hold hj with ⟨-, rfl⟩ | hj
    · exact fun hmem => hnew (h.sentDrawn _ hmem)
    · exact h.apart j k hj
  · intro j k hj
    rw [hused]
    rcases hold hj with ⟨-, rfl⟩ | hj
    · exact fun hmem => hnew (h.usedDrawn _ hmem)
    · exact h.heldUnused j k hj
  · rw [hsent, hused]
    exact h.sentUnused
  · intro j k hj
    rcases hold hj with ⟨-, rfl⟩ | hj
    · exact htoken
    · exact hdrawn (h.heldDrawn j k hj)
  · rw [hsent]
    exact fun k hk => hdrawn (h.sentDrawn k hk)
  · rw [hused]
    exact fun k hk => hdrawn (h.usedDrawn k hk)

/-- A party sends its token and no longer has it. -/
theorem send (h : OneUse t) (i : ι) (token : τ) (htoken : t.held i = some token)
    (hothers : ∀ j, j ≠ i → t'.held j = t.held j) (hself : t'.held i = none)
    (hsent : t'.sent = t.sent ++ [token]) (hused : t'.used = t.used)
    (hdrawn : t'.drawn = t.drawn) : OneUse t' := by
  have hold : ∀ {j k}, t'.held j = some k → j ≠ i ∧ t.held j = some k := by
    intro j k hj
    have hji : j ≠ i := by
      rintro rfl
      cases hself.symm.trans hj
    exact ⟨hji, (hothers j hji).symm.trans hj⟩
  refine ⟨?_, ?_, ?_, ?_, ?_, ?_, ?_, ?_⟩
  · exact fun j k k' hj hk => h.own j k k' (hold hj).2 (hold hk).2
  · intro j k hj
    obtain ⟨hji, hj⟩ := hold hj
    rw [hsent, List.mem_append, List.mem_singleton, not_or]
    refine ⟨h.apart j k hj, ?_⟩
    rintro rfl
    exact hji (h.own j i k hj htoken)
  · rw [hsent]
    refine h.sentOnce.append (List.nodup_singleton _) ?_
    rw [List.disjoint_singleton]
    exact h.apart i token htoken
  · exact fun j k hj => hused ▸ h.heldUnused j k (hold hj).2
  · rw [hsent, hused]
    intro k hk
    rcases List.mem_append.1 hk with hk | hk
    · exact h.sentUnused k hk
    · rw [List.mem_singleton.1 hk]
      exact h.heldUnused i token htoken
  · exact fun j k hj => hdrawn ▸ h.heldDrawn j k (hold hj).2
  · rw [hsent, hdrawn]
    intro k hk
    rcases List.mem_append.1 hk with hk | hk
    · exact h.sentDrawn k hk
    · rw [List.mem_singleton.1 hk]
      exact h.heldDrawn i token htoken
  · rw [hused, hdrawn]
    exact h.usedDrawn

/-- A token that was sent arrives and is used. -/
theorem arrive (h : OneUse t) (token : τ) (hheld : t'.held = t.held)
    (hsent : t.sent.Perm (token :: t'.sent))
    (hused : t'.used = t.used ++ [token]) (hdrawn : t'.drawn = t.drawn) : OneUse t' := by
  have hmem : ∀ {k}, k ∈ t'.sent → k ∈ t.sent :=
    fun hk => hsent.mem_iff.2 (List.mem_cons_of_mem token hk)
  have htoken : token ∈ t.sent := hsent.mem_iff.2 List.mem_cons_self
  have hnodup := hsent.nodup_iff.1 h.sentOnce
  refine ⟨hheld ▸ h.own, ?_, (List.nodup_cons.1 hnodup).2, ?_, ?_, ?_, ?_, ?_⟩
  · rw [hheld]
    exact fun j k hj hk => h.apart j k hj (hmem hk)
  · rw [hheld, hused]
    intro j k hj
    rw [List.mem_append, List.mem_singleton, not_or]
    refine ⟨h.heldUnused j k hj, ?_⟩
    rintro rfl
    exact h.apart j k hj htoken
  · rw [hused]
    intro k hk
    rw [List.mem_append, List.mem_singleton, not_or]
    refine ⟨h.sentUnused k (hmem hk), ?_⟩
    rintro rfl
    exact (List.nodup_cons.1 hnodup).1 hk
  · rw [hheld, hdrawn]
    exact h.heldDrawn
  · rw [hdrawn]
    exact fun k hk => h.sentDrawn k (hmem hk)
  · rw [hused, hdrawn]
    intro k hk
    rcases List.mem_append.1 hk with hk | hk
    · exact h.usedDrawn k hk
    · rw [List.mem_singleton.1 hk]
      exact h.sentDrawn token htoken

/-- A party uses its token at once. -/
theorem use (h : OneUse t) (i : ι) (token : τ) (htoken : t.held i = some token)
    (hothers : ∀ j, j ≠ i → t'.held j = t.held j) (hself : t'.held i = none)
    (hsent : t'.sent = t.sent) (hused : t'.used = t.used ++ [token])
    (hdrawn : t'.drawn = t.drawn) : OneUse t' := by
  -- This is a token that is sent and arrives.
  have hs : OneUse (⟨t'.held, t.sent ++ [token], t.used, t.drawn⟩ : Tokens ι τ) :=
    h.send i token htoken hothers hself rfl rfl rfl
  refine hs.arrive token rfl ?_ hused hdrawn
  rw [hsent]
  exact List.perm_append_singleton token t.sent

end OneUse
end TaskQueue.OneUseTokens
