namespace CodeSpace.Data

/-! What is known when a fallible computation answered. -/

variable {Failure Value Next : Type} {first : Except Failure Value} {result : Next}

theorem bind_eq_ok {rest : Value → Except Failure Next} :
    (first >>= rest) = .ok result ↔ ∃ value, first = .ok value ∧ rest value = .ok result := by
  cases first with
  | error =>
      constructor
      · intro answered
        cases answered
      · rintro ⟨value, answered, _⟩
        cases answered
  | ok value =>
      constructor
      · intro answered
        exact ⟨value, rfl, answered⟩
      · rintro ⟨found, answered, rest⟩
        cases answered
        exact rest

theorem map_eq_ok {change : Value → Next} :
    first.map change = .ok result ↔ ∃ value, first = .ok value ∧ change value = result := by
  cases first with
  | error =>
      constructor
      · intro answered
        cases answered
      · rintro ⟨value, answered, _⟩
        cases answered
  | ok value =>
      constructor
      · intro answered
        exact ⟨value, rfl, Except.ok.inj answered⟩
      · rintro ⟨found, answered, rfl⟩
        cases answered
        rfl

theorem map_answer_eq_ok {State Reply : Type} {outcome : Except Failure (Value × State)}
    {wrap : Value → Reply} {reply : Reply} {state : State} :
    outcome.map (fun answer => (wrap answer.1, answer.2)) = .ok (reply, state) ↔
      ∃ value, outcome = .ok (value, state) ∧ wrap value = reply := by
  rw [map_eq_ok]
  constructor
  · rintro ⟨⟨value, after⟩, answered, same⟩
    cases same
    exact ⟨value, answered, rfl⟩
  · rintro ⟨value, answered, rfl⟩
    exact ⟨(value, state), answered, rfl⟩

end CodeSpace.Data
