namespace FleetDispatch.Width

def most32 : Nat := 4294967295

def most64 : Nat := 18446744073709551615

def least32 : Int := -2147483648

def greatest32 : Int := 2147483647

def least64 : Int := -9223372036854775808

def greatest64 : Int := 9223372036854775807

end FleetDispatch.Width
