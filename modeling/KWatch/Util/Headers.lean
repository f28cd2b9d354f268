import Mathlib.Data.UInt

/-! # Numbers of the Linux headers

The error numbers and the attach flags that more than one command goes by.
-/

namespace KWatch

/-! ### Error numbers -/

def EPERM : ℕ := 1
def ENOENT : ℕ := 2
def ESRCH : ℕ := 3
def EINTR : ℕ := 4
def EIO : ℕ := 5
def EACCES : ℕ := 13
def ENODEV : ℕ := 19
def EINVAL : ℕ := 22
def ENOLINK : ℕ := 67
def EOPNOTSUPP : ℕ := 95

/-! ### Attach flags -/

def XDP_FLAGS_SKB_MODE : UInt32 := (1 : UInt32) <<< 1
def XDP_FLAGS_DRV_MODE : UInt32 := (1 : UInt32) <<< 2
def XDP_FLAGS_HW_MODE : UInt32 := (1 : UInt32) <<< 3

end KWatch
