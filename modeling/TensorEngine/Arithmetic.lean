/-!
Contract: one reading of powers of numbers.

Owns: the choice of the instance behind every power of a natural number or of an integer.

Does not own: laws of powers.
-/

-- A larger library offers further instances, equal to this one by definition only. A definition
-- written without that library and a lemma stated with it have to speak of the same power.
attribute [instance (high + 1)] instPowNat
attribute [default_instance (high + 1)] instPowNat
