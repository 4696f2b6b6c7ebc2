/-
# When layers may be laid over one another in groups

The layers of a call are laid over one another from the bottom up.  To lay the upper two over each
other first and then both over the bottom comes to the same as long as no key is cleared: of
several values the last one is taken either way.  A cleared key is different.  What a layer clears
is not among the things that another layer can change, so two layers laid over each other clear what
the lower one clears, and that the upper one cleared something is forgotten.

**Stated here.**  For one recognised key (`IsField.overlay_overlay_iff`) and for whole layers
(`forall_overlay_overlay_iff`): two layers may be laid over each other first, whatever is below,
exactly if the lower one clears every key that the upper one clears without giving it a value.
-/
import ScriptWeave.Proofs.Options.Stacking

namespace ScriptWeave
namespace OptionLayer

variable {α : Type} {field : OptionLayer → Option α} {key : String}
  {meaning : Directive.Value → α} {b c : OptionLayer}

/-- A field may be decided by two layers at once exactly if the lower one clears its key or the
upper one does not, or gives it a value. -/
theorem IsField.overlay_overlay_iff (h : IsField field key meaning) :
    (∀ a : OptionLayer, field (a.overlay (b.overlay c)) = field ((a.overlay b).overlay c)) ↔
      (c.unset.contains key = true → field c = none → b.unset.contains key = true) := by
  have hunset : (b.overlay c).unset = b.unset := rfl
  simp only [h.overlay, hunset]
  constructor
  · intro heq hcleared hc
    -- a value at the bottom is cleared by `c`, but by both at once only if `b` clears it
    let bottom := ({} : OptionLayer).withDirective key (.bool true)
    have hbottom : field bottom = some (meaning (.bool true)) := by
      rw [h.withDirective]
      rfl
    have hsame := heq bottom
    rw [hbottom, hc, hcleared] at hsame
    by_contra hb
    rw [Bool.not_eq_true] at hb
    rw [hb] at hsame
    cases hsame
  · intro hclear a
    cases hc : field c with
    | some v => rfl
    | none =>
      cases hcleared : c.unset.contains key with
      | false => cases field b <;> rfl
      | true =>
        rw [hclear hcleared hc]
        rfl

/-- **When layers may be grouped.**  Over every layer, two layers come to the same at once and one
after the other exactly if every recognised key that the upper one clears, and gives no value, is
cleared by the lower one too. -/
theorem forall_overlay_overlay_iff (b c : OptionLayer) :
    (∀ a : OptionLayer, a.overlay (b.overlay c) = (a.overlay b).overlay c) ↔
      ∀ key ∈ recognizedKeys, c.unset.contains key = true → ¬ c.Gives key →
        b.unset.contains key = true := by
  have hkeys : (∀ key ∈ recognizedKeys, c.unset.contains key = true → ¬ c.Gives key →
        b.unset.contains key = true) ↔
      (c.unset.contains fileKey = true → c.filename = none →
        b.unset.contains fileKey = true) ∧
      (c.unset.contains featureListKey = true → c.features = none →
        b.unset.contains featureListKey = true) ∧
      (c.unset.contains moduleKey = true → c.moduleName = none →
        b.unset.contains moduleKey = true) := by
    simp only [recognizedKeys, List.forall_mem_cons, List.not_mem_nil, false_imp_iff,
      implies_true, and_true, gives_fileKey_iff, gives_featureListKey_iff, gives_moduleKey_iff,
      not_not]
  rw [hkeys, ← isField_filename.overlay_overlay_iff,
    ← isField_features.overlay_overlay_iff, ← isField_moduleName.overlay_overlay_iff]
  constructor
  · intro heq
    exact ⟨fun a => congrArg _ (heq a), fun a => congrArg _ (heq a), fun a => congrArg _ (heq a)⟩
  · rintro ⟨hname, hfeatures, hmodule⟩ a
    have hextra : (a.overlay (b.overlay c)).extra = ((a.overlay b).overlay c).extra := by
      refine SortedMap.ext_get? fun key => ?_
      simp only [overlay, SortedMap.get?_overlay, Option.or_assoc]
    exact eq_of_parts (hname a) (hfeatures a) (hmodule a) hextra rfl

end OptionLayer
end ScriptWeave
