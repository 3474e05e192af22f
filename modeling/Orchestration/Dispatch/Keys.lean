import Orchestration.Dispatch.Events

/-!
# Keys of several parts

Maps are keyed by a provider, an account or a name joined with a separator that
the source expects in none of them.
-/

namespace Orchestration.Dispatch

/-- The character between the parts of a key. -/
def NUL : Char := '\x00'

/-- The key made of a first part and the rest. -/
def keyed (part rest : String) : String := part ++ String.singleton NUL ++ rest

theorem toList_keyed (part rest : String) :
    (keyed part rest).toList = part.toList ++ NUL :: rest.toList := by
  simp [keyed]

theorem ne_nul_of_mem {part : String} (hpart : NUL ∉ part.toList) :
    ∀ c ∈ part.toList, decide (c ≠ NUL) = true := by
  intro c hc
  have hne : c ≠ NUL := fun heq => hpart (heq ▸ hc)
  simpa using hne

theorem takeWhile_keyed {part : String} (hpart : NUL ∉ part.toList) (rest : String) :
    (keyed part rest).toList.takeWhile (· ≠ NUL) = part.toList := by
  rw [toList_keyed, List.takeWhile_append_of_pos (ne_nul_of_mem hpart)]
  simp

theorem dropWhile_keyed {part : String} (hpart : NUL ∉ part.toList) (rest : String) :
    (keyed part rest).toList.dropWhile (· ≠ NUL) = NUL :: rest.toList := by
  rw [toList_keyed, List.dropWhile_append_of_pos (ne_nul_of_mem hpart)]
  simp

theorem keyed_inj {part part' rest rest' : String} (hpart : NUL ∉ part.toList)
    (hpart' : NUL ∉ part'.toList) : keyed part rest = keyed part' rest' ↔
      part = part' ∧ rest = rest' := by
  constructor
  · intro h
    have hhead := congrArg (fun s : String => s.toList.takeWhile (· ≠ NUL)) h
    have htail := congrArg (fun s : String => s.toList.dropWhile (· ≠ NUL)) h
    simp only [takeWhile_keyed hpart, takeWhile_keyed hpart'] at hhead
    simp only [dropWhile_keyed hpart, dropWhile_keyed hpart', List.cons.injEq, true_and] at htail
    exact ⟨String.toList_injective hhead, String.toList_injective htail⟩
  · rintro ⟨rfl, rfl⟩
    rfl

theorem plain_provider (provider : Provider) : NUL ∉ (toString provider).toList := by
  cases provider <;> decide

theorem toString_provider_injective {a b : Provider} (h : toString a = toString b) : a = b := by
  cases a <;> cases b <;> first | rfl | (exact absurd h (by decide))

end Orchestration.Dispatch
