import Colorization.Proofs.Comparison.Distance

/-! A comparison as a patch. Each entry has the whole of what either side shows in a field, so
putting that in for every entry, one after the other in any order, turns one capture into the other
as far as both reach. -/
namespace Colorization

namespace Token

/-- Puts an observation in the place of what a token shows under an aspect. A length is in no
token. -/
def put (token : Token) : Aspect → Observation → Token
  | .content, .text content => { token with content }
  | .scope, .text scope => { token with scope }
  | .theme, .colors themeColors => { token with themeColors }
  | _, _ => token

theorem view_put_self (token source : Token) (aspect : Aspect) :
    (token.put aspect (source.view aspect)).view aspect = source.view aspect := by
  cases aspect <;> rfl

theorem view_put_of_ne {aspect other : Aspect} (differ : aspect ≠ other) (token : Token)
    (value : Observation) : (token.put aspect value).view other = token.view other := by
  unfold put
  split
  · cases other with
    | content => contradiction
    | scope => rfl
    | theme => rfl
  · cases other with
    | content => rfl
    | scope => contradiction
    | theme => rfl
  · cases other with
    | content => rfl
    | scope => rfl
    | theme => contradiction
  · rfl

theorem ext_view {first second : Token}
    (same : ∀ aspect, first.view aspect = second.view aspect) : first = second := by
  have content := same .content
  have scope := same .scope
  have themeColors := same .theme
  cases first
  cases second
  simp only [view, Observation.text.injEq, Observation.colors.injEq] at content scope themeColors
  simp only [content, scope, themeColors]

end Token

namespace Capture

/-- Puts one side of each entry into the token that the entry names. -/
def patched (side : Difference → Observation) (entries : List Difference) (capture : Capture) :
    Capture :=
  entries.foldl
    (fun tokens entry => tokens.modify entry.index (·.put entry.aspect (side entry))) capture

/-- Where the tokens are not yet as wanted an entry is still to come, and the entries bring nothing
but what is wanted. -/
structure Pending (side : Difference → Observation) (entries : List Difference)
    (tokens wanted : Capture) : Prop where
  length : tokens.length = wanted.length
  brought : ∀ entry ∈ entries, ∀ token, wanted[entry.index]? = some token →
    side entry = token.view entry.aspect
  lacking : ∀ (i : Nat) (now later : Token) (aspect : Aspect), tokens[i]? = some now →
    wanted[i]? = some later → now.Differs later aspect →
    ∃ entry ∈ entries, entry.index = i ∧ entry.aspect = aspect

variable {side : Difference → Observation} {entry : Difference} {entries : List Difference}
  {tokens wanted : Capture}

/-- The first entry settles its own field and leaves all others alone. -/
theorem Pending.step (pending : Pending side (entry :: entries) tokens wanted) :
    Pending side entries (tokens.modify entry.index (·.put entry.aspect (side entry))) wanted where
  length := by
    rw [List.length_modify]
    exact pending.length
  brought := fun other member => pending.brought other (List.mem_cons_of_mem _ member)
  lacking := by
    intro i now later aspect isNow isLater differs
    rw [List.getElem?_modify] at isNow
    obtain ⟨former, isFormer, rfl⟩ := Option.map_eq_some_iff.mp isNow
    -- The field that the entry names is as wanted now, and any other is as it was.
    by_cases here : entry.index = i ∧ entry.aspect = aspect
    · obtain ⟨rfl, rfl⟩ := here
      have value := pending.brought entry List.mem_cons_self later isLater
      refine absurd ?_ ((Token.differs_iff_view_ne ..).mp differs)
      rw [if_pos rfl, value]
      exact Token.view_put_self former later entry.aspect
    · have kept : (if entry.index = i then former.put entry.aspect (side entry)
          else former).view aspect = former.view aspect := by
        split
        next there =>
          exact Token.view_put_of_ne (fun same => here ⟨there, same⟩) former (side entry)
        next => rfl
      have differed : former.Differs later aspect := by
        rw [Token.differs_iff_view_ne, ← kept]
        exact (Token.differs_iff_view_ne ..).mp differs
      obtain ⟨other, member, named⟩ :=
        pending.lacking i former later aspect isFormer isLater differed
      rcases List.mem_cons.mp member with rfl | member
      · exact absurd named here
      · exact ⟨other, member, named⟩

theorem Pending.patched_eq (pending : Pending side entries tokens wanted) :
    patched side entries tokens = wanted := by
  induction entries generalizing tokens with
  | nil =>
    apply List.ext_getElem pending.length
    intro i inTokens inWanted
    apply Token.ext_view
    intro aspect
    by_contra differ
    obtain ⟨_, missing, -⟩ := pending.lacking i _ _ aspect (List.getElem?_eq_getElem inTokens)
      (List.getElem?_eq_getElem inWanted) ((Token.differs_iff_view_ne ..).mpr differ)
    cases missing
  | cons entry entries ih => exact ih pending.step

variable {baseline current : Capture}

/-- As far as both captures reach, their comparison has all that the one lacks of the other. -/
theorem pending_compare (order : entries.Perm (baseline.compare current).differences) :
    Pending Difference.actual entries (baseline.take (min baseline.length current.length))
      (current.take (min baseline.length current.length)) where
  length := by
    rw [List.length_take, List.length_take]
    omega
  brought := by
    intro entry member token isThere
    rw [List.getElem?_take, Option.ite_none_right_eq_some] at isThere
    obtain ⟨inside, inCurrent⟩ := isThere
    have inBaseline := List.getElem?_eq_getElem (show entry.index < baseline.length by omega)
    have listed := order.mem_iff.mp member
    exact congrArg Difference.actual (eq_difference_of_mem inBaseline inCurrent listed rfl).2
  lacking := by
    intro i now later aspect isNow isLater differs
    rw [List.getElem?_take, Option.ite_none_right_eq_some] at isNow isLater
    have listed := difference_mem_compare isNow.2 isLater.2 differs
    exact ⟨now.difference i later aspect, order.mem_iff.mpr listed, rfl, rfl⟩

theorem patched_mirrored (entries : List Difference) (capture : Capture) :
    patched Difference.actual (entries.map Difference.mirrored) capture =
      patched Difference.expected entries capture := by
  unfold patched
  rw [List.foldl_map]
  rfl

theorem patched_compare (order : entries.Perm (baseline.compare current).differences) :
    patched Difference.actual entries (baseline.take (min baseline.length current.length)) =
      current.take (min baseline.length current.length) :=
  (pending_compare order).patched_eq

/-- A comparison loses nothing: as far as both captures reach, the actual values of its entries turn
the baseline into the current capture and the expected ones turn that back, in whatever order they
are put in. So a baseline and a comparison have only one current capture of the same length. -/
theorem compare_patch (order : entries.Perm (baseline.compare current).differences) :
    patched Difference.actual entries (baseline.take (min baseline.length current.length)) =
        current.take (min baseline.length current.length) ∧
      patched Difference.expected entries (current.take (min baseline.length current.length)) =
        baseline.take (min baseline.length current.length) ∧
      (baseline.length = current.length →
        patched Difference.actual entries baseline = current) := by
  refine ⟨patched_compare order, ?_, ?_⟩
  · have back : (entries.map Difference.mirrored).Perm (current.compare baseline).differences := by
      rw [compare_mirrored baseline current]
      exact order.map Difference.mirrored
    rw [← patched_mirrored, Nat.min_comm]
    exact patched_compare back
  · intro level
    have whole := patched_compare order
    rwa [level, Nat.min_self, List.take_length, ← level, List.take_length] at whole

/-- The entries from the last to the first, for captures of different lengths. -/
theorem compare_patch_reversed :
    let former : Token := ⟨"let", "keyword", .ofList [("dark", "#569cd6"), ("light", "#0000ff")]⟩
    let later : Token := ⟨"var", "storage", .ofList [("dark", "#569cd6")]⟩
    let next : Token := ⟨"x", "variable", .empty⟩
    let entries := (compare [former, next] [later]).differences.reverse
    entries.Perm (compare [former, next] [later]).differences ∧
      patched Difference.actual entries [former] = [later] ∧
      patched Difference.expected entries [later] = [former] := by
  intro former later next entries
  have order : entries.Perm (compare [former, next] [later]).differences := List.reverse_perm _
  obtain ⟨there, back, -⟩ := compare_patch order
  exact ⟨order, there, back⟩

end Capture

end Colorization
