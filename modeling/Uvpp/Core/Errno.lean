/-!
# The error codes of libuv

The values that libuv returns on Linux: the negated `errno`.
-/

namespace Errno

def enoent : Int := -2
def e2big : Int := -7
def ebadf : Int := -9
def enomem : Int := -12
def ebusy : Int := -16
def einval : Int := -22
def eproto : Int := -71
def enobufs : Int := -105
def ealready : Int := -114
def ecanceled : Int := -125

end Errno
