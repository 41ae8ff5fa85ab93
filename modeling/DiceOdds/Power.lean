/-!
# Powers of numbers

Powers of natural numbers and of integers are those of the core library throughout,
also where a theory of monoids would offer its own.
-/

attribute [default_instance 20000] instPowNat
