/-!
# Powers

A power of a natural number or an integer is the one of the core library in every module, also where
an import brings powers of more general kinds.
-/

attribute [default_instance 20000, instance (20000)] instPowNat
